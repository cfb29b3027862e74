import Mathlib.Data.List.Basic

/-!
# Templates

A template is a text in which some bytes are markers. A marker with a run behind it is a placeholder, which extends
over the whole run (`pieces`), and a marker without a run stands for itself.

`scanned` is a scan for placeholders that looks at one byte after the other, but takes each marker for a placeholder,
and does not look at the first byte and at the byte right behind a placeholder. It finds the placeholders of the
template, and nothing else, if and only if none of them is where it does not look, and all other markers are
(`scanned_eq_pieces_iff`).
-/

namespace Zutils.Lib

/-- A piece of a template. -/
inductive TemplatePiece (β : Type*) where
  | text (b : β)
  | placeholder (bs : List β)
  deriving Repr, DecidableEq

namespace TemplatePiece

variable {β π : Type*}

def bytes : TemplatePiece β → List β
  | text b => [b]
  | placeholder bs => bs

/-- The bytes, with a value in place of the placeholder. -/
def put (r : List β) : TemplatePiece β → List β
  | text b => [b]
  | placeholder _ => r

def isPlaceholder : TemplatePiece β → Bool
  | text _ => false
  | placeholder _ => true

/-- The number of placeholders. -/
def holes (ps : List (TemplatePiece β)) : ℕ := ps.countP isPlaceholder

@[simp] lemma holes_nil : holes ([] : List (TemplatePiece β)) = 0 := rfl

@[simp] lemma holes_text (b : β) (ps : List (TemplatePiece β)) : holes (text b :: ps) = holes ps :=
  List.countP_cons_of_neg Bool.false_ne_true

@[simp] lemma holes_placeholder (bs : List β) (ps : List (TemplatePiece β)) :
    holes (placeholder bs :: ps) = holes ps + 1 :=
  List.countP_cons_of_pos rfl

lemma eq_map_text {ps : List (TemplatePiece β)} (h : holes ps = 0) : ps = (ps.flatMap bytes).map text := by
  induction ps with
  | nil => rfl
  | cons p ps ih =>
    cases p with
    | text b =>
      rw [holes_text] at h
      exact congrArg (text b :: ·) (ih h)
    | placeholder bs => simp at h

/-- The template with a value in each placeholder. -/
def fill (render : List β → π → List β) : List (TemplatePiece β) → List π → List β
  | [], _ => []
  | text b :: ps, values => b :: fill render ps values
  | placeholder _ :: _, [] => []
  | placeholder bs :: ps, value :: values => render bs value ++ fill render ps values

end TemplatePiece

open TemplatePiece

variable {β π : Type*} (marker run : β → Bool)

/-- The pieces of a template. -/
def pieces : List β → List (TemplatePiece β)
  | [] => []
  | b :: bs =>
    if marker b ∧ bs.takeWhile run ≠ [] then placeholder (b :: bs.takeWhile run) :: pieces (bs.dropWhile run)
    else text b :: pieces bs
termination_by q => q.length
decreasing_by
  · exact Nat.lt_succ_of_le (List.dropWhile_suffix run).length_le
  · exact Nat.lt_succ_self _

/-- What the scan takes for the pieces; `skip` says that it does not look at the next byte. -/
def scanned : Bool → List β → List (TemplatePiece β)
  | _, [] => []
  | true, b :: bs => text b :: scanned false bs
  | false, b :: bs =>
    if marker b then placeholder (b :: bs.takeWhile run) :: scanned true (bs.dropWhile run)
    else text b :: scanned false bs
termination_by _ q => q.length
decreasing_by
  · exact Nat.lt_succ_self _
  · exact Nat.lt_succ_of_le (List.dropWhile_suffix run).length_le
  · exact Nat.lt_succ_self _

/-- No placeholder is where the scan does not look, at the start or right behind a placeholder, and each other marker
is; `edge` says that the next piece is there. -/
def Separated : Bool → List (TemplatePiece β) → Prop
  | _, [] => True
  | edge, text b :: ps => (marker b → edge = true) ∧ Separated false ps
  | edge, placeholder _ :: ps => edge = false ∧ Separated true ps

instance Separated.decidable : ∀ edge (ps : List (TemplatePiece β)), Decidable (Separated marker edge ps)
  | _, [] => .isTrue trivial
  | _, text _ :: ps => @instDecidableAnd _ _ _ (Separated.decidable false ps)
  | _, placeholder _ :: ps => @instDecidableAnd _ _ _ (Separated.decidable true ps)

section Scan

variable {marker run}

lemma scanned_nil (skip : Bool) : scanned marker run skip [] = [] := by rw [scanned]

lemma scanned_skip (b : β) (bs : List β) :
    scanned marker run true (b :: bs) = text b :: scanned marker run false bs := by
  rw [scanned]

lemma scanned_marker {b : β} (h : marker b = true) (bs : List β) : scanned marker run false (b :: bs) =
    placeholder (b :: bs.takeWhile run) :: scanned marker run true (bs.dropWhile run) := by
  rw [scanned, if_pos h]

lemma scanned_text {b : β} (h : marker b = false) (bs : List β) :
    scanned marker run false (b :: bs) = text b :: scanned marker run false bs := by
  rw [scanned, if_neg (Bool.eq_false_iff.1 h)]

lemma pieces_placeholder {b : β} {bs : List β} (h : marker b = true ∧ bs.takeWhile run ≠ []) :
    pieces marker run (b :: bs) = placeholder (b :: bs.takeWhile run) :: pieces marker run (bs.dropWhile run) := by
  rw [pieces, if_pos h]

lemma pieces_text {b : β} {bs : List β} (h : ¬ (marker b = true ∧ bs.takeWhile run ≠ [])) :
    pieces marker run (b :: bs) = text b :: pieces marker run bs := by
  rw [pieces, if_neg h]

lemma pieces_bytes (q : List β) : (pieces marker run q).flatMap bytes = q := by
  fun_induction pieces marker run q with
  | case1 => rfl
  | case2 b bs h ih =>
    rw [List.flatMap_cons, ih]
    exact congrArg (b :: ·) List.takeWhile_append_dropWhile
  | case3 b bs h ih => exact congrArg (b :: ·) ih

lemma scanned_bytes (skip : Bool) (q : List β) : (scanned marker run skip q).flatMap bytes = q := by
  fun_induction scanned marker run skip q with
  | case1 => rfl
  | case2 b bs ih => exact congrArg (b :: ·) ih
  | case3 b bs h ih =>
    rw [List.flatMap_cons, ih]
    exact congrArg (b :: ·) List.takeWhile_append_dropWhile
  | case4 b bs h ih => exact congrArg (b :: ·) ih

/-- **The scan finds the placeholders** if and only if they are separated. -/
theorem scanned_eq_pieces_iff (skip : Bool) (q : List β) :
    scanned marker run skip q = pieces marker run q ↔ Separated marker skip (pieces marker run q) := by
  fun_induction scanned marker run skip q with
  | case1 skip => simp [pieces, Separated]
  | case2 b bs ih =>
    by_cases h : marker b = true ∧ bs.takeWhile run ≠ []
    · simp [pieces_placeholder h, Separated]
    · rw [pieces_text h, Separated, ← ih]
      simp
  | case3 b bs hb ih =>
    by_cases h : marker b = true ∧ bs.takeWhile run ≠ []
    · rw [pieces_placeholder h, Separated, ← ih]
      simp
    · rw [pieces_text h, Separated]
      simp [hb]
  | case4 b bs hb ih =>
    rw [pieces_text fun h => hb h.1, Separated, ← ih]
    simp [hb]

end Scan

/-! ### Templates filled with one value -/

section Fill

variable {marker run} {render : List β → π → List β} {value : π} {r : List β}

lemma fill_replicate (hr : ∀ bs, render bs value = r) (ps : List (TemplatePiece β)) :
    fill render ps (List.replicate (holes ps) value) = ps.flatMap (put r) := by
  induction ps with
  | nil => rfl
  | cons p ps ih =>
    cases p with
    | text b => rw [holes_text, fill, ih, List.flatMap_cons]; rfl
    | placeholder bs => rw [holes_placeholder, List.replicate_succ, fill, ih, hr, List.flatMap_cons]; rfl

lemma fill_split (render : List β → π → List β) (ps : List (TemplatePiece β)) (vs : List π) (h : vs.length < holes ps)
    (ws : List π) : ∃ pre bs post, ∀ v, fill render ps (vs ++ v :: ws) = pre ++ render bs v ++ post := by
  induction ps generalizing vs with
  | nil => cases h
  | cons p ps ih =>
    cases p with
    | text b =>
      obtain ⟨pre, bs, post, ih⟩ := ih vs (by rwa [holes_text] at h)
      exact ⟨b :: pre, bs, post, fun v => by rw [fill, ih]; rfl⟩
    | placeholder bs =>
      cases vs with
      | nil => exact ⟨[], bs, fill render ps ws, fun v => rfl⟩
      | cons w vs =>
        rw [holes_placeholder] at h
        obtain ⟨pre, bs', post, ih⟩ := ih vs (Nat.lt_of_succ_lt_succ h)
        exact ⟨render bs w ++ pre, bs', post, fun v => by rw [List.cons_append, fill, ih]; simp⟩

/-- **The filled template tells what the scan has found**, if what is filled in begins with a byte that is no
marker. -/
theorem scanned_eq_of_fill_eq (render : List β → π → List β) (value : π) (hr : ∀ bs, render bs value = r)
    (hhead : ∃ b bs, r = b :: bs ∧ marker b = false)
    (skip : Bool) (q : List β) (hfill :
      fill render (scanned marker run skip q) (List.replicate (holes (scanned marker run skip q)) value) =
        fill render (pieces marker run q) (List.replicate (holes (pieces marker run q)) value)) :
    scanned marker run skip q = pieces marker run q := by
  obtain ⟨x, xs, rfl, hx⟩ := hhead
  rw [fill_replicate hr, fill_replicate hr] at hfill
  have hne : ∀ {b}, marker b = true → x ≠ b := fun hb h => by rw [h, hb] at hx; cases hx
  fun_induction scanned marker run skip q with
  | case1 skip => rw [pieces]
  | case2 b bs ih =>
    by_cases h : marker b = true ∧ bs.takeWhile run ≠ []
    · rw [pieces_placeholder h] at hfill
      exact absurd (List.cons.inj hfill).1.symm (hne h.1)
    · rw [pieces_text h] at hfill ⊢
      rw [ih (List.cons.inj hfill).2]
  | case3 b bs hb ih =>
    by_cases h : marker b = true ∧ bs.takeWhile run ≠ []
    · rw [pieces_placeholder h] at hfill ⊢
      rw [ih (List.append_cancel_left hfill)]
    · rw [pieces_text h] at hfill
      exact absurd (List.cons.inj hfill).1 (hne hb)
  | case4 b bs hb ih =>
    have h : ¬ (marker b = true ∧ bs.takeWhile run ≠ []) := fun h => hb h.1
    rw [pieces_text h] at hfill ⊢
    rw [ih (List.cons.inj hfill).2]

end Fill

end Zutils.Lib
