import Mathlib.Data.List.Basic

/-!
# Writing tokens to a wire and reading them back

A token `a` is encoded by the list `encode a`. A writer appends: in a state that stands for what has been written,
writing a token gives a state that stands for that and the encoding of the token. A reader consumes: with the
encoding of a token in front of it, reading gives the token, and what is behind the encoding is in front of the
reader then. A reader is told what to read by a request, which may be any the token answers.

Either property passes from one token to a list of tokens, and with that a list that is written is read back.
-/

namespace Zutils.Lib

universe u

variable {σ : Type u} {α β δ ε : Type*} (encode : α → List β)

/-- Writing the token `a` appends its encoding, as long as what has been written still fits. -/
def Appends (stands : σ → List β → Prop) (fits : List β → Prop) (write : σ → α → Except ε σ) (a : α) : Prop :=
  ∀ s written, stands s written → fits (written ++ encode a) →
    ∃ s', write s a = .ok s' ∧ stands s' (written ++ encode a)

/-- With a token in front of it, reading on a request that the token answers gives the token. -/
def Consumes (ahead : σ → List β → Prop) (answers : δ → α → Prop) (read : σ → δ → Except ε (α × σ)) : Prop :=
  ∀ s rest d a, ahead s (encode a ++ rest) → answers d a → ∃ s', read s d = .ok (a, s') ∧ ahead s' rest

/-- Reading for each of the requests in turn. -/
def readAll (read : σ → δ → Except ε (α × σ)) : σ → List δ → Except ε (List α × σ)
  | s, [] => .ok ([], s)
  | s, d :: ds =>
    match read s d with
    | .error e => .error e
    | .ok (a, s') =>
      match readAll read s' ds with
      | .error e => .error e
      | .ok (as, s'') => .ok (a :: as, s'')

lemma readAll_append {read : σ → δ → Except ε (α × σ)} {ds es : List δ} {s s'' : σ} {cs : List α} :
    readAll read s (ds ++ es) = .ok (cs, s'') ↔
      ∃ as bs s', readAll read s ds = .ok (as, s') ∧ readAll read s' es = .ok (bs, s'') ∧ cs = as ++ bs := by
  induction ds generalizing s cs with
  | nil =>
    refine ⟨fun h => ⟨[], cs, s, rfl, h, rfl⟩, ?_⟩
    rintro ⟨as, bs, s', hnil, h, rfl⟩
    obtain ⟨rfl, rfl⟩ := Prod.mk.inj (Except.ok.inj hnil)
    exact h
  | cons d ds ih =>
    rw [List.cons_append, readAll, readAll]
    rcases read s d with e | ⟨a, s₁⟩
    · exact ⟨fun h => (by cases h), fun h => (by obtain ⟨as, bs, s', h, -⟩ := h; cases h)⟩
    · dsimp only
      constructor
      · intro h
        split at h
        · cases h
        · rename_i cs' s₂ hrest
          obtain ⟨rfl, rfl⟩ := Prod.mk.inj (Except.ok.inj h)
          obtain ⟨as, bs, s', h₁, h₂, rfl⟩ := ih.1 hrest
          exact ⟨a :: as, bs, s', by rw [h₁], h₂, rfl⟩
      · rintro ⟨as, bs, s', h₁, h₂, rfl⟩
        split at h₁
        · cases h₁
        · rename_i as' s₂ hds
          obtain ⟨rfl, rfl⟩ := Prod.mk.inj (Except.ok.inj h₁)
          rw [ih.2 ⟨as', bs, s₂, hds, h₂, rfl⟩]
          rfl

lemma readAll_singleton {read : σ → δ → Except ε (α × σ)} {d : δ} {s s' : σ} {a : α} (h : read s d = .ok (a, s')) :
    readAll read s [d] = .ok ([a], s') := by
  rw [readAll, h]
  rfl

variable {encode}

/-- **A list of tokens is appended** token by token. -/
theorem Appends.list {stands : σ → List β → Prop} {fits : List β → Prop} {write : σ → α → Except ε σ}
    (hfits : ∀ u v, fits (u ++ v) → fits u) (as : List α) (h : ∀ a ∈ as, Appends encode stands fits write a) :
    ∀ s written, stands s written → fits (written ++ as.flatMap encode) →
      ∃ s', as.foldlM write s = .ok s' ∧ stands s' (written ++ as.flatMap encode) := by
  induction as with
  | nil =>
    intro s written hs _
    exact ⟨s, rfl, by rwa [List.flatMap_nil, List.append_nil]⟩
  | cons a as ih =>
    intro s written hs hfit
    rw [List.flatMap_cons, ← List.append_assoc] at hfit ⊢
    obtain ⟨s', hwrite, hs'⟩ := h a List.mem_cons_self s written hs (hfits _ _ hfit)
    obtain ⟨s'', hrest, hs''⟩ := ih (fun b hb => h b (List.mem_cons_of_mem _ hb)) s' _ hs' hfit
    refine ⟨s'', ?_, hs''⟩
    rw [List.foldlM_cons, hwrite]
    exact hrest

/-- **A list of tokens is consumed** token by token. -/
theorem Consumes.list {ahead : σ → List β → Prop} {answers : δ → α → Prop} {read : σ → δ → Except ε (α × σ)}
    (h : Consumes encode ahead answers read) {ds : List δ} {as : List α} (hd : List.Forall₂ answers ds as) :
    ∀ s rest, ahead s (as.flatMap encode ++ rest) → ∃ s', readAll read s ds = .ok (as, s') ∧ ahead s' rest := by
  induction hd with
  | nil =>
    intro s rest hs
    exact ⟨s, rfl, hs⟩
  | @cons d a ds as hda _ ih =>
    intro s rest hs
    rw [List.flatMap_cons, List.append_assoc] at hs
    obtain ⟨s', hread, hs'⟩ := h s _ d a hs hda
    obtain ⟨s'', hrest, hs''⟩ := ih s' rest hs'
    refine ⟨s'', ?_, hs''⟩
    rw [readAll, hread]
    simp only [hrest]

end Zutils.Lib
