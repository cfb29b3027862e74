import Mathlib.Data.List.Basic

/-!
# Framed streams

A stream of symbols is cut into frames by what stands at its front: a framing says of every sequence whether its
front is a complete frame, is invalid, or has to wait for more. What makes this a framing of a stream, which arrives
in pieces, is that the verdict on a complete frame rests on the frame alone, and that an invalid front stays invalid.

`Reads s xs r` says that frames with the contents `xs` stand at the front of `s` and leave `r`. `parse` reads frames
as long as it can and as long as a consumer accepts them. Both are local: what has been read from `s` is read from
`s ++ t` too, and reading goes on from what was left (`parse_append`).
-/

namespace Zutils.Lib

variable {α κ : Type*}

/-- What stands at the front of a sequence: a frame of `n` symbols with the content `x`, or no frame. -/
inductive Front (κ : Type*) where
  | wait
  | bad
  | frame (n : ℕ) (x : κ)
  deriving DecidableEq, Repr

/-- A way of cutting a stream into frames. -/
structure Framing (α κ : Type*) where
  front : List α → Front κ
  /-- A frame takes at least one symbol. -/
  pos : ∀ {s n x}, front s = .frame n x → 0 < n
  /-- A frame is complete. -/
  le : ∀ {s n x}, front s = .frame n x → n ≤ s.length
  /-- A frame is recognised by its own symbols. -/
  frame_append : ∀ {s n x} (t : List α), front s = .frame n x → front (s.take n ++ t) = .frame n x
  /-- An invalid front stays invalid. -/
  bad_append : ∀ {s} (t : List α), front s = .bad → front (s ++ t) = .bad

namespace Framing

variable {F : Framing α κ} {s t r : List α} {xs ys : List κ} {n : ℕ} {x : κ}

lemma front_append (h : F.front s = .frame n x) (t : List α) : F.front (s ++ t) = .frame n x := by
  have := F.frame_append (s.drop n ++ t) h
  rwa [← List.append_assoc, List.take_append_drop] at this

lemma front_take (h : F.front s = .frame n x) : F.front (s.take n) = .frame n x := by
  have := F.frame_append [] h
  rwa [List.append_nil] at this

lemma drop_append_of_frame (h : F.front s = .frame n x) (t : List α) :
    (s ++ t).drop n = s.drop n ++ t := List.drop_append_of_le_length (F.le h)

@[elab_as_elim]
theorem front_induction (F : Framing α κ) {P : List α → Prop} (wait : ∀ s, F.front s = .wait → P s)
    (bad : ∀ s, F.front s = .bad → P s) (frame : ∀ s n x, F.front s = .frame n x → P (s.drop n) → P s)
    (s : List α) : P s := by
  induction hm : s.length using Nat.strongRecOn generalizing s with
  | ind m ih =>
    rcases hf : F.front s with _ | _ | ⟨n, x⟩
    · exact wait s hf
    · exact bad s hf
    · have hpos := F.pos hf
      have hle := F.le hf
      exact frame s n x hf (ih _ (by rw [List.length_drop]; omega) _ rfl)

/-! ### Frames at the front -/

/-- The frames with contents `xs` stand at the front of the first sequence and leave the last one. -/
inductive Reads (F : Framing α κ) : List α → List κ → List α → Prop
  | nil (s : List α) : Reads F s [] s
  | cons {s r : List α} {n : ℕ} {x : κ} {xs : List κ} :
      F.front s = .frame n x → Reads F (s.drop n) xs r → Reads F s (x :: xs) r

namespace Reads

lemma append (h : F.Reads s xs r) (t : List α) : F.Reads (s ++ t) xs (r ++ t) := by
  induction h with
  | nil s => exact .nil _
  | cons hf _ ih => exact .cons (front_append hf t) (by rwa [drop_append_of_frame hf])

lemma trans (h : F.Reads s xs t) (h' : F.Reads t ys r) : F.Reads s (xs ++ ys) r := by
  induction h with
  | nil s => exact h'
  | cons hf _ ih => exact .cons hf (ih h')

lemma snoc (h : F.Reads s xs r) (hf : F.front r = .frame n x) : F.Reads s (xs ++ [x]) (r.drop n) :=
  h.trans (.cons hf (.nil _))

/-- **Nothing is lost**: the sequence is the frames, each of which is a frame by itself, followed by what is left. -/
theorem exists_raws (h : F.Reads s xs r) :
    ∃ raws : List (List α), raws.flatten ++ r = s ∧
      List.Forall₂ (fun raw x => F.front raw = .frame raw.length x) raws xs := by
  induction h with
  | nil s => exact ⟨[], rfl, .nil⟩
  | cons hf _ ih =>
    rename_i s r n x xs hr
    obtain ⟨raws, hs, hraws⟩ := ih
    have hlen : (s.take n).length = n := by
      rw [List.length_take]
      exact Nat.min_eq_left (F.le hf)
    refine ⟨s.take n :: raws, ?_, .cons ?_ hraws⟩
    · rw [List.flatten_cons, List.append_assoc, hs, List.take_append_drop]
    · rw [hlen]
      exact front_take hf

end Reads

/-! ### Reading all frames -/

/-- What reading comes to: the contents read, whether it stopped for good, and what is left. -/
structure Outcome (α κ : Type*) where
  items : List κ
  stopped : Bool
  rest : List α
  deriving DecidableEq, Repr

/-- Reading with a bound on the number of frames. -/
def parseFuel (F : Framing α κ) (accept : List κ → Bool) : ℕ → List κ → List α → Outcome α κ
  | 0, seen, s => ⟨seen, false, s⟩
  | k + 1, seen, s =>
    match F.front s with
    | .wait => ⟨seen, false, s⟩
    | .bad => ⟨seen, true, s⟩
    | .frame n x =>
      if accept (seen ++ [x]) then parseFuel F accept k (seen ++ [x]) (s.drop n)
      else ⟨seen ++ [x], true, s.drop n⟩

/-- Reads the frames of `s`, those with the contents `seen` having been read before. It stops at an invalid front, and
behind a frame the consumer does not accept. -/
def parse (F : Framing α κ) (accept : List κ → Bool) (seen : List κ) (s : List α) : Outcome α κ :=
  F.parseFuel accept (s.length + 1) seen s

variable {accept : List κ → Bool} {seen : List κ}

lemma parseFuel_eq (seen : List κ) {k l : ℕ} (hk : s.length < k) (hl : s.length < l) :
    F.parseFuel accept k seen s = F.parseFuel accept l seen s := by
  induction k generalizing l seen s with
  | zero => omega
  | succ k ih =>
    obtain ⟨l, rfl⟩ : ∃ l', l = l' + 1 := ⟨l - 1, by omega⟩
    rw [parseFuel, parseFuel]
    rcases hf : F.front s with _ | _ | ⟨n, x⟩
    · rfl
    · rfl
    · have hpos := F.pos hf
      have hle := F.le hf
      have hlen : (s.drop n).length = s.length - n := List.length_drop
      simp only [ih (s := s.drop n) (seen ++ [x]) (l := l) (by omega) (by omega)]

/-- **One frame at a time**: how `parse` unfolds. -/
theorem parse_eq : F.parse accept seen s =
    match F.front s with
    | .wait => ⟨seen, false, s⟩
    | .bad => ⟨seen, true, s⟩
    | .frame n x =>
      if accept (seen ++ [x]) then F.parse accept (seen ++ [x]) (s.drop n)
      else ⟨seen ++ [x], true, s.drop n⟩ := by
  rw [parse, parseFuel]
  rcases hf : F.front s with _ | _ | ⟨n, x⟩
  · rfl
  · rfl
  · have hpos := F.pos hf
    have hlen : (s.drop n).length = s.length - n := List.length_drop
    have hle := F.le hf
    simp only [parse, parseFuel_eq _ (s := s.drop n) (k := s.length) (l := (s.drop n).length + 1) (by omega) (by omega)]

lemma parse_wait (h : F.front s = .wait) : F.parse accept seen s = ⟨seen, false, s⟩ := by
  rw [parse_eq, h]

lemma parse_bad (h : F.front s = .bad) : F.parse accept seen s = ⟨seen, true, s⟩ := by
  rw [parse_eq, h]

lemma parse_frame (h : F.front s = .frame n x) (ha : accept (seen ++ [x]) = true) :
    F.parse accept seen s = F.parse accept (seen ++ [x]) (s.drop n) := by
  rw [parse_eq, h]
  simp only [ha, if_true]

lemma parse_refused (h : F.front s = .frame n x) (ha : accept (seen ++ [x]) = false) :
    F.parse accept seen s = ⟨seen ++ [x], true, s.drop n⟩ := by
  rw [parse_eq, h]
  simp [ha]

/-- **Reading resumes**: reading `s ++ t` is reading `s` first and then, unless that stopped for good, what it left
followed by `t`. -/
theorem parse_append (t : List α) : F.parse accept seen (s ++ t) =
    if (F.parse accept seen s).stopped then ⟨(F.parse accept seen s).items, true, (F.parse accept seen s).rest ++ t⟩
    else F.parse accept (F.parse accept seen s).items ((F.parse accept seen s).rest ++ t) := by
  induction s using F.front_induction generalizing seen with
  | wait s hf => simp [parse_wait hf]
  | bad s hf => simp [parse_bad hf, parse_bad (F.bad_append t hf)]
  | frame s n x hf ih =>
    rcases ha : accept (seen ++ [x]) with _ | _
    · simp [parse_refused hf ha, parse_refused (front_append hf t) ha, drop_append_of_frame hf]
    · rw [parse_frame (front_append hf t) ha, parse_frame hf ha, drop_append_of_frame hf]
      exact ih

lemma parse_extends (F : Framing α κ) (accept : List κ → Bool) (seen : List κ) (s : List α) :
    ∃ xs, (F.parse accept seen s).items = seen ++ xs := by
  induction s using F.front_induction generalizing seen with
  | wait s hf => exact ⟨[], by rw [parse_wait hf, List.append_nil]⟩
  | bad s hf => exact ⟨[], by rw [parse_bad hf, List.append_nil]⟩
  | frame s n x hf ih =>
    rcases ha : accept (seen ++ [x]) with _ | _
    · exact ⟨[x], by rw [parse_refused hf ha]⟩
    · obtain ⟨xs, hxs⟩ := ih (seen ++ [x])
      exact ⟨x :: xs, by rw [parse_frame hf ha, hxs, List.append_assoc, List.singleton_append]⟩

/-- Reading that has not stopped for good has read nothing, or what the consumer accepts. -/
lemma parse_accepted (h : (F.parse accept seen s).stopped = false) :
    (F.parse accept seen s).items = seen ∨ accept (F.parse accept seen s).items = true := by
  induction s using F.front_induction generalizing seen with
  | wait s hf => exact .inl (by rw [parse_wait hf])
  | bad s hf =>
    rw [parse_bad hf] at h
    cases h
  | frame s n x hf ih =>
    rcases ha : accept (seen ++ [x]) with _ | _
    · rw [parse_refused hf ha] at h
      cases h
    · rw [parse_frame hf ha] at h ⊢
      rcases ih h with hitems | hacc
      · rw [hitems]
        exact .inr ha
      · exact .inr hacc

/-! ### All frames of a stream -/

/-- The contents of the complete frames of `s` before the first invalid front. -/
def frames (F : Framing α κ) (s : List α) : List κ := (F.parse (fun _ => true) [] s).items

lemma parse_items (F : Framing α κ) (seen : List κ) (s : List α) :
    (F.parse (fun _ => true) seen s).items = seen ++ F.frames s := by
  rw [frames]
  induction s using F.front_induction generalizing seen with
  | wait s hf => simp [parse_wait hf]
  | bad s hf => simp [parse_bad hf]
  | frame s n x hf ih =>
    rw [parse_frame hf rfl, parse_frame hf rfl, ih (seen ++ [x]), ih ([] ++ [x])]
    simp

lemma frames_frame (h : F.front s = .frame n x) : F.frames s = x :: F.frames (s.drop n) := by
  rw [frames, parse_frame h rfl, parse_items]
  rfl

lemma frames_eq_nil (h : ∀ n x, F.front s ≠ .frame n x) : F.frames s = [] := by
  rcases hf : F.front s with _ | _ | ⟨n, x⟩
  · rw [frames, parse_wait hf]
  · rw [frames, parse_bad hf]
  · exact absurd hf (h n x)

lemma parse_items_eq_iff : (F.parse accept seen s).items = seen ↔ F.frames s = [] := by
  rcases hf : F.front s with _ | _ | ⟨n, x⟩
  · rw [parse_wait hf, frames_eq_nil (fun n x h => by rw [hf] at h; cases h)]
    exact iff_of_true rfl rfl
  · rw [parse_bad hf, frames_eq_nil (fun n x h => by rw [hf] at h; cases h)]
    exact iff_of_true rfl rfl
  · have hne : (F.parse accept seen s).items ≠ seen := by
      intro h
      rcases ha : accept (seen ++ [x]) with _ | _
      · rw [parse_refused hf ha] at h
        exact List.cons_ne_nil x [] (List.append_right_eq_self.1 h)
      · obtain ⟨xs, hxs⟩ := F.parse_extends accept (seen ++ [x]) (s.drop n)
        rw [parse_frame hf ha, hxs, List.append_assoc] at h
        exact List.cons_ne_nil x xs (List.append_right_eq_self.1 h)
    rw [frames_frame hf]
    exact iff_of_false hne (List.cons_ne_nil _ _)

lemma Reads.frames (h : F.Reads s xs r) : F.frames s = xs ++ F.frames r := by
  induction h with
  | nil s => rfl
  | cons hf _ ih => rw [frames_frame hf, ih, List.cons_append]

/-! ### Streams of whole frames -/

/-- `raw` is a frame with the content `x`, and nothing else. -/
def IsFrame (F : Framing α κ) (raw : List α) (x : κ) : Prop := F.front raw = .frame raw.length x

section WholeFrames

variable {raws : List (List α)}

lemma IsFrame.pos {raw : List α} (h : F.IsFrame raw x) : 0 < raw.length := F.pos h

lemma front_flatten {raw : List α} (h : F.IsFrame raw x) : F.front ((raw :: raws).flatten) = .frame raw.length x := by
  rw [List.flatten_cons]
  exact front_append h _

/-- **Whole frames are read back**: what is read of a stream of frames, as far as it has come, is the first of them,
and what has not been read is the others. -/
theorem Reads.of_frames {t : List α} (h : F.Reads s ys r) (hs : s ++ t = raws.flatten)
    (hraws : List.Forall₂ F.IsFrame raws xs) :
    ys = xs.take ys.length ∧ r ++ t = (raws.drop ys.length).flatten ∧
      List.Forall₂ F.IsFrame (raws.drop ys.length) (xs.drop ys.length) := by
  induction h generalizing raws xs with
  | nil s => exact ⟨rfl, hs, hraws⟩
  | @cons s r n y ys hf _ ih =>
    have hfront := front_append hf t
    cases hraws with
    | nil =>
      -- a frame takes at least one symbol
      have hnil : s = [] := (List.append_eq_nil_iff.1 hs).1
      have hpos := F.pos hf
      have hle := F.le hf
      rw [hnil, List.length_nil] at hle
      omega
    | @cons raw _ raws _ hraw hrest =>
      rw [hs, front_flatten hraw] at hfront
      obtain ⟨rfl, rfl⟩ := Front.frame.inj hfront
      have hdrop : s.drop raw.length ++ t = raws.flatten := by
        rw [← drop_append_of_frame hf, hs, List.flatten_cons, List.drop_left' rfl]
      obtain ⟨hys, hrt, hall⟩ := ih hdrop hrest
      refine ⟨?_, hrt, hall⟩
      rw [List.length_cons, List.take_succ_cons, ← hys]

/-- No front of a part of a stream of frames is invalid. -/
lemma front_ne_bad {t : List α} (hnil : F.front [] = .wait) (hs : s ++ t = raws.flatten)
    (hraws : List.Forall₂ F.IsFrame raws xs) : F.front s ≠ .bad := by
  intro hbad
  have hfront := F.bad_append t hbad
  rcases hraws with _ | ⟨hraw, hrest⟩
  · rw [hs, List.flatten_nil, hnil] at hfront
    cases hfront
  · rw [hs, front_flatten hraw] at hfront
    cases hfront

lemma eq_nil_of_wait (hwait : F.front raws.flatten = .wait) (hraws : List.Forall₂ F.IsFrame raws xs) : raws = [] := by
  rcases hraws with _ | ⟨hraw, hrest⟩
  · rfl
  · rw [front_flatten hraw] at hwait
    cases hwait

end WholeFrames

/-! ### Headers of a fixed length -/

section Header

variable {h : ℕ} {len : List α → Option ℕ} {content : List α → κ}

/-- The front of a sequence of frames that start with a header of `h` symbols: the header tells the length of the
body, or that it is invalid. -/
def headerFront (h : ℕ) (len : List α → Option ℕ) (content : List α → κ) (s : List α) : Front κ :=
  if s.length < h then .wait
  else match len (s.take h) with
    | none => .bad
    | some n => if s.length < h + n then .wait else .frame (h + n) (content (s.take (h + n)))

lemma headerFront_eq_bad : headerFront h len content s = .bad ↔ h ≤ s.length ∧ len (s.take h) = none := by
  unfold headerFront
  by_cases hs : s.length < h
  · have hle : ¬ h ≤ s.length := by omega
    simp [hs, hle]
  · rcases hl : len (s.take h) with _ | n
    · simp [hs]; omega
    · by_cases hn : s.length < h + n <;> simp [hs, hn]

lemma headerFront_eq_wait : headerFront h len content s = .wait ↔
    s.length < h ∨ ∃ m, len (s.take h) = some m ∧ s.length < h + m := by
  unfold headerFront
  by_cases hs : s.length < h
  · simp [hs]
  · rcases hl : len (s.take h) with _ | m
    · simp [hs]
    · by_cases hm : s.length < h + m <;> simp [hs, hm]

lemma headerFront_eq_frame : headerFront h len content s = .frame n x ↔
    ∃ m, len (s.take h) = some m ∧ n = h + m ∧ n ≤ s.length ∧ x = content (s.take n) := by
  unfold headerFront
  by_cases hs : s.length < h
  · simp [hs]; omega
  · rcases hl : len (s.take h) with _ | m
    · simp [hs]
    · by_cases hm : s.length < h + m
      · simp [hs, hm]; omega
      · simp only [hs, hm, if_false, Front.frame.injEq, Option.some.injEq]
        constructor
        · rintro ⟨rfl, rfl⟩
          exact ⟨m, rfl, rfl, by omega, rfl⟩
        · rintro ⟨m', rfl, rfl, -, rfl⟩
          exact ⟨rfl, rfl⟩

/-- **Frames with a header of a fixed length** are a framing. -/
def ofHeader (h : ℕ) (hpos : 0 < h) (len : List α → Option ℕ) (content : List α → κ) : Framing α κ where
  front := headerFront h len content
  pos {s n x} hf := by
    obtain ⟨m, -, rfl, -⟩ := headerFront_eq_frame.1 hf
    omega
  le {s n x} hf := by
    obtain ⟨m, -, -, hle, -⟩ := headerFront_eq_frame.1 hf
    exact hle
  frame_append {s n x} t hf := by
    obtain ⟨m, hm, rfl, hle, rfl⟩ := headerFront_eq_frame.1 hf
    have hlen : (s.take (h + m)).length = h + m := by rw [List.length_take]; omega
    refine headerFront_eq_frame.2 ⟨m, ?_, rfl, by rw [List.length_append]; omega, ?_⟩
    · rw [List.take_append_of_le_length (by omega), List.take_take, Nat.min_eq_left (by omega), hm]
    · rw [List.take_left' hlen]
  bad_append {s} t hf := by
    obtain ⟨hle, hn⟩ := headerFront_eq_bad.1 hf
    refine headerFront_eq_bad.2 ⟨by rw [List.length_append]; omega, ?_⟩
    rw [List.take_append_of_le_length hle, hn]

@[simp] lemma ofHeader_front (hpos : 0 < h) : (ofHeader h hpos len content).front s = headerFront h len content s := rfl

end Header

end Framing

end Zutils.Lib
