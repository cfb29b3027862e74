import Zutils.Lib.XmlAttribute
import Zutils.Xml.SerializerSpec

/-!
# What is read back of an attribute value

`convertEntityInAttribute` puts a backslash and an `n` for a line feed, and leaves tabs, carriage returns and backslashes
as they are. So a value with white space other than spaces is not read back, and a line feed cannot be told from a
backslash in front of an `n` (`lossless_iff`).
-/

namespace Zutils.Xml

open Zutils.Lib.Xml

/-- A value that is read back, and that no other value is written like. -/
structure Lossless (v : List UInt8) : Prop where
  decoded : decodeValue (convertEntityInAttribute v) = some v
  alone : ∀ w, 0 ∉ w → convertEntityInAttribute w = convertEntityInAttribute v → w = v

/-- A backslash and an `n`. -/
def kBackslashN : List UInt8 := ascii ['\\', 'n']

/-- A value with a backslash and an `n` for each line feed. -/
def backslashed (v : List UInt8) : List UInt8 := v.flatMap fun c => if c = 0x0A then kBackslashN else [c]

section

variable {v w : List UInt8} {c : UInt8}

lemma backslashed_append : backslashed (v ++ w) = backslashed v ++ backslashed w := List.flatMap_append

lemma backslashed_lineFeed : backslashed (v ++ 0x0A :: w) = backslashed v ++ (kBackslashN ++ backslashed w) :=
  backslashed_append

lemma backslashed_pair (a b : List UInt8) : backslashed (a ++ (kBackslashN ++ b)) = backslashed (a ++ 0x0A :: b) := by
  rw [backslashed_lineFeed, backslashed_append, backslashed_append]
  rfl

lemma noNul_iff {a b : List UInt8} : 0 ∉ a ++ 0x0A :: b ↔ 0 ∉ a ++ (kBackslashN ++ b) := by
  simp [kBackslashN, ascii]

lemma backslashed_eq (h : 0x0A ∉ v) : backslashed v = v := by
  induction v with
  | nil => rfl
  | cons c v ih =>
    rw [List.mem_cons, not_or] at h
    rw [backslashed, List.flatMap_cons, if_neg (Ne.symm h.1)]
    exact congrArg (c :: ·) (ih h.2)

lemma backslashed_noLineFeed (v : List UInt8) : 0x0A ∉ backslashed v := by
  intro hmem
  obtain ⟨c, -, hmem⟩ := List.mem_flatMap.1 hmem
  split at hmem
  · revert hmem
    decide
  · rename_i hc
    exact hc (List.mem_singleton.1 hmem).symm

lemma convertEntityInAttribute_backslashed (v : List UInt8) :
    convertEntityInAttribute v = convertEntityInText (backslashed v) := by
  rw [convertEntityInAttribute, convertEntityInText, backslashed, List.flatMap_assoc]
  refine List.flatMap_congr fun c _ => ?_
  rw [entityInAttribute]
  split
  · rfl
  · simp

lemma decode_convertEntityInText (v : List UInt8) : decode (convertEntityInText v) = some v :=
  decode_flatMap fun c _ => (entityInText_spec c).2.2.2

lemma lineFeed_mem_entityInText (h : 0x0A ∈ entityInText c) : c = 0x0A := by
  rw [entityInText] at h
  split_ifs at h
  all_goals first
    | exact absurd h (by decide)
    | exact (List.mem_singleton.1 h).symm

lemma map_spaced_entityInText (c : UInt8) : (entityInText c).map spaced = entityInText (spaced c) := by
  rw [entityInText]
  split_ifs with hless hgreater hamp hapos hquote
  · subst hless
    rfl
  · subst hgreater
    rfl
  · subst hamp
    rfl
  · subst hapos
    rfl
  · subst hquote
    rfl
  · by_cases hspace : isSpace c = true
    · rw [List.map_singleton, spaced, if_pos hspace]
      rfl
    · rw [List.map_singleton, spaced_eq_self fun h => absurd h hspace, entityInText, if_neg hless, if_neg hgreater,
        if_neg hamp, if_neg hapos, if_neg hquote]

/-- **What is read of a value**: the line feeds with a backslash, and other white space made spaces. -/
lemma decodeValue_convertEntityInAttribute (v : List UInt8) :
    decodeValue (convertEntityInAttribute v) = some ((backslashed v).map spaced) := by
  have hnot : ∀ c ∈ convertEntityInText (backslashed v), c ≠ kLess ∧ c ≠ 0x0A := by
    intro c hc
    obtain ⟨d, hd, hc⟩ := List.mem_flatMap.1 hc
    constructor
    · rintro rfl
      exact (entityInText_spec d).1 hc
    · rintro rfl
      exact backslashed_noLineFeed v (lineFeed_mem_entityInText hc ▸ hd)
  rw [convertEntityInAttribute_backslashed]
  refine decodeValue_eq (fun h => (hnot _ h).1 rfl) (fun h => (hnot _ h).2 rfl) ?_
  have hmap : (convertEntityInText (backslashed v)).map spaced = convertEntityInText ((backslashed v).map spaced) := by
    rw [convertEntityInText, convertEntityInText, List.map_flatMap, List.flatMap_map]
    exact List.flatMap_congr fun c _ => map_spaced_entityInText c
  rw [hmap, decode_convertEntityInText]

/-- A value is read back if it has no white space but spaces. -/
lemma decoded_iff : decodeValue (convertEntityInAttribute v) = some v ↔ ∀ c ∈ v, isSpace c = true → c = 0x20 := by
  rw [decodeValue_convertEntityInAttribute, Option.some.injEq]
  constructor
  · intro h c hc hspace
    rw [← h] at hc
    obtain ⟨d, -, rfl⟩ := List.mem_map.1 hc
    exact spaced_isSpace hspace
  · intro h
    have hfeed : 0x0A ∉ v := fun hmem => absurd (h _ hmem rfl) (by decide)
    rw [backslashed_eq hfeed]
    refine (List.map_congr_left fun c hc => ?_).trans (List.map_id v)
    exact spaced_eq_self (h c hc)

/-- No other value is written like one without line feeds, and without what is written for them. -/
lemma alone_iff (hv : 0 ∉ v) : (∀ w, 0 ∉ w → convertEntityInAttribute w = convertEntityInAttribute v → w = v) ↔
    0x0A ∉ v ∧ ¬ kBackslashN <:+: v := by
  have hconvert : ∀ w, convertEntityInAttribute w = convertEntityInAttribute v ↔ backslashed w = backslashed v := by
    intro w
    rw [convertEntityInAttribute_backslashed, convertEntityInAttribute_backslashed]
    refine ⟨fun h => ?_, congrArg _⟩
    have hdecode := congrArg decode h
    rwa [decode_convertEntityInText, decode_convertEntityInText, Option.some.injEq] at hdecode
  simp only [hconvert]
  constructor
  · intro halone
    constructor
    · intro hmem
      obtain ⟨a, b, rfl⟩ := List.append_of_mem hmem
      have heq := halone (a ++ (kBackslashN ++ b)) (noNul_iff.1 hv) (backslashed_pair a b)
      have hlen := congrArg List.length heq
      simp [kBackslashN, ascii] at hlen
    · rintro ⟨a, b, rfl⟩
      rw [List.append_assoc] at halone hv
      have heq := halone (a ++ 0x0A :: b) (noNul_iff.2 hv) (backslashed_pair a b).symm
      have hlen := congrArg List.length heq
      simp [kBackslashN, ascii] at hlen
  · rintro ⟨hfeed, hinfix⟩ w - hw
    rw [backslashed_eq hfeed] at hw
    by_cases hmem : 0x0A ∈ w
    · obtain ⟨a, b, rfl⟩ := List.append_of_mem hmem
      rw [backslashed_lineFeed] at hw
      exact absurd ⟨backslashed a, backslashed b, by rw [← hw, List.append_assoc]⟩ hinfix
    · rwa [backslashed_eq hmem] at hw

/-- **A value is not lost if and only if it has no white space but spaces, and no backslash in front of an `n`.** -/
theorem lossless_iff (hv : 0 ∉ v) :
    Lossless v ↔ (∀ c ∈ v, isSpace c = true → c = 0x20) ∧ ¬ kBackslashN <:+: v := by
  constructor
  · rintro ⟨hdecoded, halone⟩
    exact ⟨decoded_iff.1 hdecoded, ((alone_iff hv).1 halone).2⟩
  · rintro ⟨hspace, hinfix⟩
    have hfeed : 0x0A ∉ v := fun hmem => absurd (hspace _ hmem rfl) (by decide)
    exact ⟨decoded_iff.2 hspace, (alone_iff hv).2 ⟨hfeed, hinfix⟩⟩

/-- Quotes and spaces are not lost. -/
theorem lossless_quoted : Lossless (ascii ['"', 'b', '"', ' ', 'c']) :=
  (lossless_iff (by decide)).2 ⟨by simp [ascii, isSpace], by decide⟩

/-- A line feed is read back as a backslash and an `n`, and written like them. -/
theorem lossy_lineFeed : decodeValue (convertEntityInAttribute [0x0A]) = some kBackslashN ∧
    convertEntityInAttribute [0x0A] = convertEntityInAttribute kBackslashN ∧ ¬ ∀ v, 0 ∉ v → Lossless v := by
  refine ⟨by decide, by decide, fun hall => ?_⟩
  have heq := (hall [0x0A] (by decide)).alone kBackslashN (by decide) (by decide)
  revert heq
  decide

end

end Zutils.Xml
