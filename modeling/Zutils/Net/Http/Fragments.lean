import Zutils.Net.Http.Request

/-!
# Requests in fragments

Each callback for the URL sets the path anew, each callback for a field sets the name that waits for its value, and the
first fragment of a value uses the name up. So a URL or a value in several fragments is always lost, in part. A name in
several fragments is cut down to the last of them, which is harmless only by chance.
-/

namespace Zutils.Net.Http

variable {r : Request}

/-- The delivery in which the context collects what it would have collected of the whole request. -/
structure Delivery.Harmless (d : Delivery r) : Prop where
  url : d.url.length = 1
  values : ∀ l ∈ d.lines, l.2.length = 1
  /-- Of any name, the first value stays the first when each name is its last fragment. -/
  names : ∀ x, (d.lines.map fun l => (l.1.getLast?.getD [], l.2.flatten)).lookup x = r.lines.lookup x

section Parts

variable {bs : List UInt8} {parts : List (List UInt8)}

lemma Parts.eq_singleton (h : Parts bs parts) (h1 : parts.length = 1) : parts = [bs] := by
  obtain ⟨f, rfl⟩ := List.length_eq_one_iff.1 h1
  have hbs := h.flatten
  rw [List.flatten_singleton] at hbs
  rw [hbs]

lemma Parts.getLast_eq_iff (h : Parts bs parts) : parts.getLast h.ne_nil = bs ↔ parts.length = 1 := by
  constructor
  · intro hlast
    rcases h.pieces_ne with h1 | hne
    · exact h1
    have hsplit := List.dropLast_append_getLast h.ne_nil
    have hflat := h.flatten
    rw [← hsplit, List.flatten_append, List.flatten_singleton, hlast, List.append_left_eq_self] at hflat
    have hinit : parts.dropLast = [] := by
      rw [List.eq_nil_iff_forall_not_mem]
      intro f hf
      exact hne f (List.dropLast_subset parts hf) (List.flatten_eq_nil_iff.1 hflat f hf)
    rw [← hsplit, hinit]
    rfl
  · intro h1
    have heq := h.eq_singleton h1
    subst heq
    rfl

end Parts

lemma lookup_nil (r : Request) : r.lines.lookup [] = none := by
  rw [List.lookup_eq_none_iff]
  intro l hl
  exact bne_iff_ne.2 (r.name_ne l hl).symm

/-- A value in several fragments leaves something under the empty name. -/
lemma values_of_lookup (d : Delivery r) (h : d.inserted.lookup [] = none) : ∀ l ∈ d.lines, l.2.length = 1 := by
  intro l hl
  obtain ⟨_, -, -, hparts⟩ := d.parts_of_mem hl
  obtain ⟨v, vs, hv⟩ := List.exists_cons_of_ne_nil hparts.ne_nil
  rcases vs with _ | ⟨w, vs⟩
  · rw [hv]
    rfl
  · have hmem : (([], w) : List UInt8 × List UInt8) ∈ d.inserted := by
      refine List.mem_flatMap.2 ⟨l, hl, ?_⟩
      rw [hv]
      simp
    have := List.lookup_eq_none_iff.1 h _ hmem
    simp at this

lemma inserted_eq (d : Delivery r) (h : ∀ l ∈ d.lines, l.2.length = 1) :
    d.inserted = d.lines.map fun l => (l.1.getLast?.getD [], l.2.flatten) := by
  rw [Delivery.inserted, List.map_eq_flatMap]
  refine List.flatMap_congr fun l hl => ?_
  obtain ⟨v, hv⟩ := List.length_eq_one_iff.1 (h l hl)
  rw [hv, List.flatten_singleton]
  rfl

/-- **Requests are assembled from fragments exactly when the fragments are harmless.** A fresh context that gets a
request in fragments ends with the path and the header map that it ends with when it gets the request whole, if and
only if the URL and every value come in one fragment, and cutting the names down to their last fragments changes no
first value. -/
theorem assembled_iff (p : HttpParser) (done : Bool) (r : Request) (d : Delivery r) :
    ((d.calls.foldl HttpRequestContext.callback (.new p done)).httpRequest.path =
        (r.calls.foldl HttpRequestContext.callback (.new p done)).httpRequest.path ∧
      (d.calls.foldl HttpRequestContext.callback (.new p done)).httpRequest.headers =
        (r.calls.foldl HttpRequestContext.callback (.new p done)).httpRequest.headers) ↔ d.Harmless := by
  have hmap : ∀ lines, insertAll (HttpRequestContext.new p done).httpRequest.headers lines = fun x => lines.lookup x :=
    fun lines => by
      funext x
      rw [insertAll_apply]
      rfl
  rw [← Delivery.whole_calls r, foldl_calls d rfl, foldl_calls (Delivery.whole r) rfl]
  dsimp only
  rw [hmap, hmap, Delivery.inserted_whole]
  show d.url.getLast d.url_parts.ne_nil = r.path ∧ (fun x => d.inserted.lookup x) = (fun x => r.lines.lookup x) ↔ _
  rw [d.url_parts.getLast_eq_iff, funext_iff]
  constructor
  · rintro ⟨hurl, hlookup⟩
    have hvalues := values_of_lookup d (by rw [hlookup, lookup_nil])
    rw [inserted_eq d hvalues] at hlookup
    exact ⟨hurl, hvalues, hlookup⟩
  · rintro ⟨hurl, hvalues, hnames⟩
    rw [inserted_eq d hvalues]
    exact ⟨hurl, hnames⟩

/-- **A URL that crosses a read loses its beginning**: of `/index` in the fragments `/in` and `dex`, the path is `dex`. -/
theorem url_in_two_fragments :
    let r := Request.get [47, 105, 110, 100, 101, 120] [] (by decide) (by simp)
    ∃ d : Delivery r, ∀ (p : HttpParser) (done : Bool),
      (d.calls.foldl HttpRequestContext.callback (.new p done)).httpRequest.path = [100, 101, 120] ∧
      ¬ ((d.calls.foldl HttpRequestContext.callback (.new p done)).httpRequest.path =
          (r.calls.foldl HttpRequestContext.callback (.new p done)).httpRequest.path ∧
        (d.calls.foldl HttpRequestContext.callback (.new p done)).httpRequest.headers =
          (r.calls.foldl HttpRequestContext.callback (.new p done)).httpRequest.headers) := by
  intro r
  let d : Delivery r :=
    { Delivery.whole r with
      url := [[47, 105, 110], [100, 101, 120]]
      url_parts := ⟨rfl, by decide, .inr (by decide)⟩ }
  refine ⟨d, fun p done => ⟨rfl, fun ⟨hpath, _⟩ => ?_⟩⟩
  have hpath' : ([100, 101, 120] : List UInt8) = [47, 105, 110, 100, 101, 120] := hpath
  simp at hpath'

end Zutils.Net.Http
