import Zutils.Db.QueryStringSpec
import Zutils.Lib.SqlLexer

/-!
# Strings in queries

What `MakeQueryString` puts in for a string or a blob is read back by the server as a literal with that value. So what
a query with such a parameter means depends on the value only through the value of the literal.
-/

namespace Zutils.Db

open Zutils.Lib TemplatePiece Sql

/-- A parameter that is bound to the bytes `v`; `rest` is what lies behind them in memory. -/
def stringParam (type : ColumnType) (v rest : List UInt8) : QueryParamItem := ⟨type, v.length, some (v ++ rest)⟩

/-- In a query with a literal, the tokens depend on its value only in the token of the literal. -/
def SameStructure (pre post : List UInt8) : Prop :=
  ∃ before old closed more rest, ∀ v,
    tokens (pre ++ quoted v ++ post) = before ++ .text kQuote closed (old ++ v ++ more) :: rest

section Literal

variable {platform : Platform} {type : ColumnType} {v : List UInt8}

lemma escape_encodes (v : List UInt8) : Encodes kQuote v (escape v) := by
  induction v with
  | nil => exact .nil
  | cons c v ih =>
    rw [escape, List.flatMap_cons]
    by_cases hc : isEscaped c = true
    · have hself : unescape c = [c] := by
        simp only [isEscaped, decide_eq_true_eq] at hc
        rcases hc with rfl | rfl | rfl <;> rfl
      have h := Encodes.escaped (c := c) ih
      rw [hself] at h
      rw [if_pos hc]
      exact h
    · rw [if_neg hc]
      simp only [isEscaped, decide_eq_true_eq, not_or] at hc
      exact .plain hc.1 hc.2.2 ih

lemma stringParam_readable (htype : type = .strEsc ∨ type = .blob) (rest : List UInt8) :
    (stringParam type v rest).Readable := by
  rintro p ⟨⟩
  have hsize : (stringParam type v rest).size = v.length := by rcases htype with rfl | rfl <;> rfl
  rw [hsize, List.length_append]
  exact Nat.le_add_right _ _

lemma rendering_stringParam (htype : type = .strEsc ∨ type = .blob) (next : UInt8) (rest : List UInt8) :
    rendering platform next (stringParam type v rest) = quoted v := by
  have htake : (v ++ rest).take (v.length : ℤ).toNat = v := List.take_left' rfl
  rcases htype with rfl | rfl
  · exact congrArg quoted htake
  · exact congrArg quoted htake

/-- The literal is open at all of its bytes but the last. -/
lemma quoted_isOpen {e : List UInt8} (he : e <+: quoted v) (hne : e ≠ []) (hproper : e ≠ quoted v) :
    (stateFrom .between e).IsOpen kQuote := by
  rw [quoted, List.cons_append] at he hproper
  rcases List.prefix_cons_iff.1 he with rfl | ⟨e', rfl, he'⟩
  · exact absurd rfl hne
  · rcases List.prefix_concat_iff.1 he' with rfl | hprefix
    · exact absurd rfl hproper
    · exact (escape_encodes v).isOpen [] hprefix

lemma sameStructure {pre : List UInt8} (hopens : (stateFrom .between pre).Opens kQuote) (post : List UInt8) :
    SameStructure pre post := by
  obtain ⟨before, old, closed, more, rest, h⟩ := tokens_literal (by decide) hopens post
  exact ⟨before, old, closed, more, rest, fun v => h v _ (escape_encodes v)⟩

/-- In a query that does not put another quote next to it, the literal is a token by itself. -/
lemma own_literal {pre post : List UInt8} (hopens : (step (stateFrom .between pre) kQuote).2 = .text kQuote [])
    (hpost : post.head? ≠ some kQuote) :
    ∃ before rest, ∀ v, tokens (pre ++ quoted v ++ post) = before ++ .text kQuote true v :: rest := by
  obtain ⟨before, rest, h⟩ := tokens_own_literal (by decide) hopens hpost
  exact ⟨before, rest, fun v => h v _ (escape_encodes v)⟩

variable {ps ws : List QueryParamItem}

/-- With a string among the parameters, a query is made or not whatever the string is, and in the query only the
literal depends on it. -/
lemma makeQueryString_stringParam (platform : Platform) (query : CString) (lmt : UInt32)
    (htype : type = .strEsc ∨ type = .blob) (hps : ∀ p ∈ ps ++ ws, p.Readable) :
    (∀ v rest before fuel, query.bytes.length < fuel →
      makeQueryString platform fuel (some query) (some (ps ++ stringParam type v rest :: ws)) lmt (some before) =
        some (.ok (false, some []))) ∨
    ∃ pre post, ∀ v rest before fuel, query.bytes.length < fuel →
      makeQueryString platform fuel (some query) (some (ps ++ stringParam type v rest :: ws)) lmt (some before) =
        some (.ok (true, some (pre ++ quoted v ++ post))) := by
  have hread : ∀ v rest, ∀ p ∈ ps ++ stringParam type v rest :: ws, p.Readable := fun v rest p hp => by
    rcases List.mem_append.1 hp with hp | hp
    · exact hps p (List.mem_append_left _ hp)
    · rcases List.mem_cons.1 hp with rfl | hp
      · exact stringParam_readable htype rest
      · exact hps p (List.mem_append_right _ hp)
  have hmake := fun v rest before fuel (hfuel : query.bytes.length < fuel) =>
    makeQueryString_eq platform query (List.append_ne_nil_of_right_ne_nil ps (List.cons_ne_nil _ _))
      (hread v rest) lmt before hfuel
  simp only [List.length_append, List.length_cons] at hmake
  by_cases hcount : ps.length + (ws.length + 1) < 2 ^ 32 ∧
      holes (scannedFrom query 0) = ps.length + (ws.length + 1)
  · simp only [if_pos hcount] at hmake
    obtain ⟨pre, bs, post, hfill⟩ := fill_split (fun bs item => rendering platform (bs.getD 1 0) item)
      (scannedFrom query 0) ps (by omega) ws
    refine .inr ⟨pre, post ++ limitClause lmt, fun v rest before fuel hfuel => ?_⟩
    rw [hmake v rest before fuel hfuel, fillParams, hfill, rendering_stringParam htype, List.append_assoc,
      List.append_assoc]
  · simp only [if_neg hcount] at hmake
    exact .inl hmake

end Literal

/-- **A string cannot break out of its literal**: its text is one literal with its value, and where a literal can begin
the rest of the query is read as the same tokens for all values. -/
theorem literal_sealed (platform : Platform) {type : ColumnType} (htype : type = .strEsc ∨ type = .blob) :
    (∀ next v rest dest, appendParam platform next (stringParam type v rest) dest = .ok (dest ++ quoted v)) ∧
    (∀ v, tokens (quoted v) = [.text kQuote true v] ∧
      ∀ e, e <+: quoted v → e ≠ [] → e ≠ quoted v → (stateFrom .between e).IsOpen kQuote) ∧
    ∀ query lmt ps ws, (∀ p ∈ ps ++ ws, p.Readable) →
      (∀ v rest before fuel, query.bytes.length < fuel →
        makeQueryString platform fuel (some query) (some (ps ++ stringParam type v rest :: ws)) lmt (some before) =
          some (.ok (false, some []))) ∨
      ∃ pre post, (∀ v rest before fuel, query.bytes.length < fuel →
        makeQueryString platform fuel (some query) (some (ps ++ stringParam type v rest :: ws)) lmt (some before) =
          some (.ok (true, some (pre ++ quoted v ++ post)))) ∧
        ((stateFrom .between pre).Opens kQuote → SameStructure pre post) ∧
        ((step (stateFrom .between pre) kQuote).2 = .text kQuote [] → post.head? ≠ some kQuote →
          ∃ before rest, ∀ v, tokens (pre ++ quoted v ++ post) = before ++ .text kQuote true v :: rest) := by
  refine ⟨fun next v rest dest => ?_, fun v => ⟨?_, fun e => quoted_isOpen⟩, fun query lmt ps ws hps => ?_⟩
  · rw [appendParam_eq (stringParam_readable htype rest), rendering_stringParam htype]
  · exact tokens_quoted (escape_encodes v) (.inl rfl)
  · rcases makeQueryString_stringParam platform query lmt htype hps with hfail | ⟨pre, post, hmake⟩
    · exact .inl hfail
    · exact .inr ⟨pre, post, hmake, fun hopens => sameStructure hopens post, own_literal⟩

/-- The template `a=:1`, in which the literal is a token by itself, whatever its value is. -/
theorem literal_sealed_backslash :
    (appendParam hostPlatform 0x31 (stringParam .blob [0x27, 0x5C] []) [] =
        .ok [0x27, 0x5C, 0x27, 0x5C, 0x5C, 0x27] ∧
      tokens [0x27, 0x5C, 0x27, 0x5C, 0x5C, 0x27] = [.text kQuote true [0x27, 0x5C]]) ∧
    (∀ v rest before fuel, 4 < fuel →
      makeQueryString hostPlatform fuel (some ⟨[0x61, 0x3D, 0x3A, 0x31], by decide⟩) (some [stringParam .blob v rest]) 0
        (some before) = some (.ok (true, some ([0x61, 0x3D] ++ quoted v ++ [])))) ∧
    SameStructure [0x61, 0x3D] [] ∧
    ∃ before rest, ∀ v, tokens ([0x61, 0x3D] ++ quoted v ++ []) = before ++ .text kQuote true v :: rest := by
  obtain ⟨hparam, htokens, hquery⟩ := literal_sealed hostPlatform (show ColumnType.blob = .strEsc ∨ ColumnType.blob = .blob from .inr rfl)
  refine ⟨⟨hparam 0x31 [0x27, 0x5C] [] [], (htokens [0x27, 0x5C]).1⟩, ?_⟩
  rcases hquery ⟨[0x61, 0x3D, 0x3A, 0x31], by decide⟩ 0 [] [] (fun p hp => by cases hp) with
    hfail | ⟨pre, post, hmake, hsame, hown⟩
  · have hmade := hfail [0x79] [] [] 5 (by decide)
    exact absurd hmade (by decide)
  · -- what is made of the value `y` tells what is around it
    have hmade : some [0x61, 0x3D, 0x27, 0x79, 0x27] = some (pre ++ quoted [0x79] ++ post) := by
      have hy := hmake [0x79] [] [] 5 (by decide)
      exact (Prod.mk.inj (Except.ok.inj (Option.some.inj hy))).2
    obtain ⟨rfl, rfl⟩ : pre = [0x61, 0x3D] ∧ post = [] := by
      have hbytes : [0x61, 0x3D, 0x27, 0x79, 0x27] = pre ++ (0x27 :: 0x79 :: 0x27 :: post) := by
        simpa [quoted, escape, isEscaped, kQuote, kBackslash] using hmade
      have hlen := congrArg List.length hbytes
      simp only [List.length_append, List.length_cons, List.length_nil] at hlen
      rcases pre with _ | ⟨c, _ | ⟨d, pre⟩⟩
      · simp at hbytes
      · simp at hbytes
      · obtain rfl : pre = [] := List.length_eq_zero_iff.1 (by simp only [List.length_cons] at hlen; omega)
        obtain rfl : post = [] := List.length_eq_zero_iff.1 (by simp only [List.length_cons] at hlen; omega)
        simpa using hbytes.symm
    exact ⟨hmake, hsame ⟨[], by decide⟩, hown (by decide) (by decide)⟩

/-- **A literal within quotes can be broken out of**: in the template `':1'` the quotes of the parameter close and open
those of the template, so that the value `y` makes three tokens and the value ` OR 1=1 -- ` five. -/
theorem literal_in_quotes :
    let query : CString := ⟨[0x27, 0x3A, 0x31, 0x27], by decide⟩
    let v₁ : List UInt8 := [0x79]
    let v₂ : List UInt8 := ascii [' ', 'O', 'R', ' ', '1', '=', '1', ' ', '-', '-', ' ']
    let make := fun v => makeQueryString hostPlatform 5 (some query) (some [stringParam .strEsc v []]) 0 (some [])
    make v₁ = some (.ok (true, some ([0x27] ++ quoted v₁ ++ [0x27]))) ∧
      make v₂ = some (.ok (true, some ([0x27] ++ quoted v₂ ++ [0x27]))) ∧
      tokens ([0x27] ++ quoted v₁ ++ [0x27]) = [.text kQuote true [], .word [0x79], .text kQuote true []] ∧
      tokens ([0x27] ++ quoted v₂ ++ [0x27]) = [.text kQuote true [], .word (ascii ['O', 'R']), .word (ascii ['1']),
        .symbol 0x3D, .word (ascii ['1'])] ∧
      ¬ SameStructure [0x27] [0x27] := by
  intro query v₁ v₂ make
  have h₁ : tokens ([0x27] ++ quoted v₁ ++ [0x27]) = [.text kQuote true [], .word [0x79], .text kQuote true []] := by
    decide
  have h₂ : tokens ([0x27] ++ quoted v₂ ++ [0x27]) = [.text kQuote true [], .word (ascii ['O', 'R']),
      .word (ascii ['1']), .symbol 0x3D, .word (ascii ['1'])] := by
    decide
  refine ⟨by decide, by decide, h₁, h₂, ?_⟩
  rintro ⟨before, old, closed, more, rest, h⟩
  have hlen₁ := congrArg List.length ((h v₁).symm.trans h₁)
  have hlen₂ := congrArg List.length ((h v₂).symm.trans h₂)
  simp only [List.length_append, List.length_cons] at hlen₁ hlen₂
  exact absurd (hlen₁.symm.trans hlen₂) (by decide)

end Zutils.Db
