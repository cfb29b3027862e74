import Mathlib.Data.List.Forall2
import Zutils.Lib.Scanning
import Zutils.Net.Http.RequestContext

/-!
# Well-formed requests and what the context makes of them

A request is a document of pieces: the method, the URL, the version, and then header lines, the end of the headers and
the body in the order in which they come, so that the trailer of a chunked body is a header line behind the end of the
headers. A header may be folded over several lines. `Request.calls` are the callbacks for a request with each token in
one fragment, and `Request.callsAtOnce` those for a request that is read at once, where each line of a folded value is
a fragment of its own.

A parser may call several times for one URL, field or value. A `Delivery` of a request says with which fragments it
does. What the context does with a delivery is an equation (`foldl_calls`): the path is the last fragment of the URL,
and the header map is filled with what `Delivery.inserted` lists.
-/

namespace Zutils.Net.Http

open Zutils.Lib

abbrev HttpPiece := Piece UInt8 HttpCallbackKind

/-- The fragments in which `bs` is delivered: at least one, and none of several is empty. -/
structure Parts (bs : List UInt8) (parts : List (List UInt8)) : Prop where
  flatten : parts.flatten = bs
  ne_nil : parts ≠ []
  pieces_ne : parts.length = 1 ∨ ∀ f ∈ parts, f ≠ []

lemma parts_singleton (bs : List UInt8) : Parts bs [bs] := ⟨List.append_nil _, List.cons_ne_nil _ _, .inl rfl⟩

/-! ### Requests -/

/-- What follows the request line. A header has its value in lines: one, or those it is folded over, each with the end
of line behind it. -/
inductive RequestItem where
  | header (name colon : List UInt8) (value : List (List UInt8 × List UInt8))
  | markup (bs : List UInt8)
  | headersComplete
  | body (bs : List UInt8)
  deriving Repr

namespace RequestItem

/-- `http_parser` calls for each line of a value that is folded, with the blanks that the line begins with. -/
def pieces : RequestItem → List HttpPiece
  | header name colon value =>
    .token .headerField name :: .silent colon :: value.flatMap fun l => [.token .headerValue l.1, .silent l.2]
  | markup bs => [.silent bs]
  | headersComplete => [.mark .headersComplete]
  | body bs => [.block .body bs]

/-- The name of a header, and the lines of its value. -/
def folded : RequestItem → Option (List UInt8 × List (List UInt8))
  | header name _ value => some (name, value.map Prod.fst)
  | _ => none

/-- The name and the value of a header. -/
def line : RequestItem → Option (List UInt8 × List UInt8)
  | header name _ value => some (name, (value.map Prod.fst).flatten)
  | _ => none

/-- The callbacks when each token comes in one fragment. -/
def calls : RequestItem → List HttpCallback
  | header name _ value => [(.headerField, name), (.headerValue, (value.map Prod.fst).flatten)]
  | markup _ => []
  | headersComplete => [(.headersComplete, [])]
  | body bs => [(.body, bs)]

end RequestItem

lemma callsOf_header (name colon : List UInt8) (value : List (List UInt8 × List UInt8)) :
    callsOf (RequestItem.header name colon value).pieces =
      (.headerField, name) :: (value.map Prod.fst).map (.headerValue, ·) := by
  have hvalue : (value.flatMap fun l => [Piece.token HttpCallbackKind.headerValue l.1, .silent l.2]).filterMap
      Piece.call = (value.map Prod.fst).map (HttpCallbackKind.headerValue, ·) := by
    rw [List.filterMap_flatMap, List.map_map, List.map_eq_flatMap]
    rfl
  exact congrArg (List.cons (HttpCallbackKind.headerField, name)) hvalue

/-- A well-formed request. The method with the blank behind it is `start`. -/
structure Request where
  start : List UInt8
  path : List UInt8
  version : List UInt8
  items : List RequestItem
  path_ne : path ≠ []
  name_ne : ∀ l ∈ items.filterMap RequestItem.line, l.1 ≠ []
  value_parts : ∀ l ∈ items.filterMap RequestItem.folded, Parts l.2.flatten l.2
  closed : Closed (.token .url path :: .silent version :: (items.flatMap RequestItem.pieces ++ [.mark .messageComplete]))

namespace Request

/-- The request from its URL on. -/
def rest (r : Request) : List HttpPiece :=
  .token .url r.path :: .silent r.version :: (r.items.flatMap RequestItem.pieces ++ [.mark .messageComplete])

def pieces (r : Request) : List HttpPiece := .silent r.start :: r.rest

/-- The headers, in their order. -/
def lines (r : Request) : List (List UInt8 × List UInt8) := r.items.filterMap RequestItem.line

/-- The headers with the lines of their values. -/
def foldedLines (r : Request) : List (List UInt8 × List (List UInt8)) := r.items.filterMap RequestItem.folded

lemma lines_eq (r : Request) : r.lines = r.foldedLines.map fun l => (l.1, l.2.flatten) := by
  rw [lines, foldedLines, List.map_filterMap]
  congr 1
  funext i
  cases i <;> rfl

/-- The headers of the request; of a name that occurs twice, the first value. -/
def headers (r : Request) : HeadersMap := fun name => r.lines.lookup name

/-- No value is folded. -/
def Unfolded (r : Request) : Prop := ∀ l ∈ r.foldedLines, l.2.length = 1

instance (r : Request) : Decidable r.Unfolded := inferInstanceAs (Decidable (∀ l ∈ r.foldedLines, l.2.length = 1))

/-- The callbacks for the request when each token comes in one fragment. -/
def calls (r : Request) : List HttpCallback :=
  (.url, r.path) :: (r.items.flatMap RequestItem.calls ++ [(.messageComplete, [])])

/-- The callbacks for the request when it is read at once. -/
def callsAtOnce (r : Request) : List HttpCallback := callsOf r.rest

/-- A header line with a name and a value. -/
def headerLine (l : List UInt8 × List UInt8) : RequestItem := .header l.1 [58, 32] [(l.2, [13, 10])]

lemma closed_headerLines (lines : List (List UInt8 × List UInt8)) {rest : List HttpPiece} (h : Closed rest) :
    Closed ((lines.map headerLine).flatMap RequestItem.pieces ++ rest) := by
  induction lines with
  | nil => exact h
  | cons l lines ih =>
    rw [List.map_cons, List.flatMap_cons, List.append_assoc]
    exact ⟨Nat.succ_pos _, Nat.succ_pos _, ih⟩

/-- A `GET` request, with the header lines that are given as pairs of a name and a value. -/
def get (path : List UInt8) (lines : List (List UInt8 × List UInt8)) (hpath : path ≠ [])
    (hlines : ∀ l ∈ lines, l.1 ≠ []) : Request where
  start := [71, 69, 84, 32]
  path := path
  version := [32, 72, 84, 84, 80, 47, 49, 46, 49, 13, 10]
  items := lines.map headerLine ++ [.markup [13, 10], .headersComplete]
  path_ne := hpath
  name_ne := by
    intro l hl
    rw [List.filterMap_append, List.filterMap_map, List.mem_append] at hl
    rcases hl with hl | hl
    · obtain ⟨l', hl', he⟩ := List.mem_filterMap.1 hl
      obtain rfl := Option.some.inj he
      exact hlines l' hl'
    · cases hl
  value_parts := by
    intro l hl
    rw [List.filterMap_append, List.filterMap_map, List.mem_append] at hl
    rcases hl with hl | hl
    · obtain ⟨l', -, he⟩ := List.mem_filterMap.1 hl
      obtain rfl := Option.some.inj he
      exact ⟨rfl, List.cons_ne_nil _ _, .inl rfl⟩
    · cases hl
  closed := by
    refine ⟨Nat.succ_pos _, ?_⟩
    rw [List.flatMap_append, List.append_assoc]
    exact closed_headerLines lines trivial

end Request

/-! ### Fragments -/

/-- An item as it is delivered: a header line in fragments, or other callbacks. -/
inductive DeliveredItem where
  | header (name value : List (List UInt8))
  | other (calls : List HttpCallback)

namespace DeliveredItem

def calls : DeliveredItem → List HttpCallback
  | header name value => name.map (.headerField, ·) ++ value.map (.headerValue, ·)
  | other calls => calls

def line : DeliveredItem → Option (List (List UInt8) × List (List UInt8))
  | header name value => some (name, value)
  | other _ => none

/-- The item when the lines of a value are delivered in the fragments `cut` of them, and nothing else is cut. -/
def ofLines (cut : List (List UInt8) → List (List UInt8)) : RequestItem → DeliveredItem
  | .header name _ value => header [name] (cut (value.map Prod.fst))
  | .markup _ => other []
  | .headersComplete => other [(.headersComplete, [])]
  | .body bs => other [(.body, bs)]

/-- The item is delivered in this way. Of the body it is only said that it comes in callbacks for the body. -/
def Of : RequestItem → DeliveredItem → Prop
  | .header name _ value, .header names values => Parts name names ∧ Parts (value.map Prod.fst).flatten values
  | .markup _, .other calls => calls = []
  | .headersComplete, .other calls => calls = [(.headersComplete, [])]
  | .body _, .other calls => ∀ c ∈ calls, c.1 = .body
  | _, _ => False

end DeliveredItem

/-- The fragments in which a request is delivered. -/
structure Delivery (r : Request) where
  url : List (List UInt8)
  items : List DeliveredItem
  url_parts : Parts r.path url
  items_of : List.Forall₂ DeliveredItem.Of r.items items

namespace Delivery

variable {r : Request}

def calls (d : Delivery r) : List HttpCallback :=
  d.url.map (.url, ·) ++ d.items.flatMap DeliveredItem.calls ++ [(.messageComplete, [])]

/-- The fragments of the header lines. -/
def lines (d : Delivery r) : List (List (List UInt8) × List (List UInt8)) := d.items.filterMap DeliveredItem.line

lemma lines_parts (d : Delivery r) :
    List.Forall₂ (fun l l' => Parts l.1 l'.1 ∧ Parts l.2 l'.2) r.lines d.lines := by
  have hitems : ∀ {is : List RequestItem} {ds : List DeliveredItem}, List.Forall₂ DeliveredItem.Of is ds →
      List.Forall₂ (fun l l' => Parts l.1 l'.1 ∧ Parts l.2 l'.2) (is.filterMap RequestItem.line)
        (ds.filterMap DeliveredItem.line) := by
    intro is ds h
    induction h with
    | nil => exact .nil
    | @cons i d _ _ hid _ ih =>
      cases i <;> cases d <;> first | exact hid.elim | exact .cons hid ih | exact ih
  exact hitems d.items_of

lemma parts_of_mem (d : Delivery r) {l' : List (List UInt8) × List (List UInt8)} (hl : l' ∈ d.lines) :
    ∃ l ∈ r.lines, Parts l.1 l'.1 ∧ Parts l.2 l'.2 := by
  have hlines := d.lines_parts
  generalize r.lines = ls at hlines ⊢
  generalize d.lines = ls' at hlines hl
  induction hlines with
  | nil => cases hl
  | @cons l l'' ls ls' h _ ih =>
    rcases List.mem_cons.1 hl with rfl | hl
    · exact ⟨l, List.mem_cons_self, h⟩
    · obtain ⟨m, hm, hparts⟩ := ih hl
      exact ⟨m, List.mem_cons_of_mem _ hm, hparts⟩

/-- The delivery in which nothing is cut but the values. -/
def ofLines (r : Request) (cut : List (List UInt8) → List (List UInt8))
    (hcut : ∀ fs, Parts fs.flatten fs → Parts fs.flatten (cut fs)) : Delivery r where
  url := [r.path]
  items := r.items.map (DeliveredItem.ofLines cut)
  url_parts := parts_singleton _
  items_of := by
    rw [List.forall₂_map_right_iff, List.forall₂_same]
    intro i hi
    cases i with
    | header name colon value =>
      exact ⟨parts_singleton name, hcut _ (r.value_parts _ (List.mem_filterMap.2 ⟨_, hi, rfl⟩))⟩
    | markup bs => rfl
    | headersComplete => rfl
    | body bs =>
      intro c hc
      rw [List.mem_singleton.1 hc]

/-- The delivery in which nothing is cut. -/
def whole (r : Request) : Delivery r := ofLines r (fun fs => [fs.flatten]) fun fs _ => parts_singleton fs.flatten

/-- The delivery of a request that is read at once. -/
def atOnce (r : Request) : Delivery r := ofLines r id fun _ h => h

lemma ofLines_lines (r : Request) (cut : List (List UInt8) → List (List UInt8))
    (hcut : ∀ fs, Parts fs.flatten fs → Parts fs.flatten (cut fs)) :
    (ofLines r cut hcut).lines = r.foldedLines.map fun l => ([l.1], cut l.2) := by
  rw [lines, ofLines, Request.foldedLines, List.filterMap_map, List.map_filterMap]
  congr 1
  funext i
  cases i <;> rfl

lemma whole_calls (r : Request) : (whole r).calls = r.calls := by
  have hitems : (r.items.map (DeliveredItem.ofLines fun fs => [fs.flatten])).flatMap DeliveredItem.calls =
      r.items.flatMap RequestItem.calls := by
    rw [List.flatMap_map]
    congr 1
    funext i
    cases i <;> rfl
  show (.url, r.path) :: ((r.items.map (DeliveredItem.ofLines fun fs => [fs.flatten])).flatMap DeliveredItem.calls ++
    [(.messageComplete, [])]) = r.calls
  rw [hitems]
  rfl

/-- **A request that is read at once** is cut only where a value is folded. -/
lemma atOnce_calls (r : Request) : (atOnce r).calls = r.callsAtOnce := by
  have hitems : (r.items.map (DeliveredItem.ofLines id)).flatMap DeliveredItem.calls =
      callsOf (r.items.flatMap RequestItem.pieces) := by
    rw [List.flatMap_map, callsOf, List.filterMap_flatMap]
    congr 1
    funext i
    cases i with
    | header name colon value => exact (callsOf_header name colon value).symm
    | markup bs => rfl
    | headersComplete => rfl
    | body bs => rfl
  show (.url, r.path) :: ((r.items.map (DeliveredItem.ofLines id)).flatMap DeliveredItem.calls ++ [(.messageComplete, [])]) =
    (.url, r.path) :: callsOf (r.items.flatMap RequestItem.pieces ++ [.mark .messageComplete])
  rw [hitems, callsOf_append]
  rfl

/-- What is inserted into the header map: the first fragment of a value under the last fragment of its name, and the
other fragments of the value under the empty name. -/
def inserted (d : Delivery r) : List (List UInt8 × List UInt8) :=
  d.lines.flatMap fun l => ((l.1.getLast?.getD [], l.2.headD []) :: l.2.tail.map ([], ·))

lemma inserted_whole (r : Request) : (whole r).inserted = r.lines := by
  rw [inserted, whole, ofLines_lines, List.flatMap_map, Request.lines_eq, List.map_eq_flatMap]
  rfl

lemma inserted_atOnce (r : Request) : (atOnce r).inserted =
    r.foldedLines.flatMap fun l => (l.1, l.2.headD []) :: l.2.tail.map ([], ·) := by
  rw [inserted, atOnce, ofLines_lines, List.flatMap_map]
  rfl

lemma inserted_of_unfolded {r : Request} (h : r.Unfolded) : (atOnce r).inserted = r.lines := by
  rw [inserted_atOnce, Request.lines_eq, List.map_eq_flatMap]
  refine List.flatMap_congr fun l hl => ?_
  obtain ⟨f, hf⟩ := List.length_eq_one_iff.1 (h l hl)
  rw [hf, List.flatten_singleton]
  rfl

end Delivery

/-! ### What the context makes of a delivery -/

/-- The header map after the lines have been inserted. -/
def insertAll (headers : HeadersMap) (lines : List (List UInt8 × List UInt8)) : HeadersMap :=
  lines.foldl (fun m l => m.insert l.1 l.2) headers

lemma insertAll_append (headers : HeadersMap) (lines lines' : List (List UInt8 × List UInt8)) :
    insertAll headers (lines ++ lines') = insertAll (insertAll headers lines) lines' := List.foldl_append

lemma insertAll_apply (headers : HeadersMap) (lines : List (List UInt8 × List UInt8)) (x : List UInt8) :
    insertAll headers lines x = (headers x).or (lines.lookup x) := by
  induction lines generalizing headers with
  | nil => exact Option.or_none.symm
  | cons l lines ih =>
    rw [insertAll, List.foldl_cons, ← insertAll, ih, HeadersMap.insert, List.lookup_cons]
    by_cases hx : x = l.1
    · rw [if_pos hx, hx, beq_self_eq_true]
      cases headers l.1 <;> rfl
    · rw [if_neg hx, beq_false_of_ne hx]

section Context

variable {p : HttpParser} {ctx : HttpRequestContext p}

lemma foldl_url {parts : List (List UInt8)} (h : parts ≠ []) :
    (parts.map ((.url, ·) : List UInt8 → HttpCallback)).foldl HttpRequestContext.callback ctx =
      { ctx with httpRequest := { ctx.httpRequest with path := parts.getLast h } } := by
  induction parts generalizing ctx with
  | nil => exact absurd rfl h
  | cons f parts ih =>
    rw [List.map_cons, List.foldl_cons]
    rcases parts with _ | ⟨g, parts⟩
    · rfl
    · rw [ih (List.cons_ne_nil g parts), List.getLast_cons (List.cons_ne_nil g parts)]
      rfl

lemma foldl_fields {parts : List (List UInt8)} (h : parts ≠ []) :
    (parts.map ((.headerField, ·) : List UInt8 → HttpCallback)).foldl HttpRequestContext.callback ctx =
      { ctx with tmpHeaderField := parts.getLast?.getD [] } := by
  induction parts generalizing ctx with
  | nil => exact absurd rfl h
  | cons f parts ih =>
    rw [List.map_cons, List.foldl_cons]
    rcases parts with _ | ⟨g, parts⟩
    · rfl
    · rw [ih (List.cons_ne_nil g parts), List.getLast?_cons_cons]
      rfl

/-- Behind the first fragment of a value, all fragments go under the empty name. -/
lemma foldl_values (parts : List (List UInt8)) (h : ctx.tmpHeaderField = []) :
    (parts.map ((.headerValue, ·) : List UInt8 → HttpCallback)).foldl HttpRequestContext.callback ctx =
      { ctx with httpRequest := { ctx.httpRequest with
        headers := insertAll ctx.httpRequest.headers (parts.map ([], ·)) } } := by
  induction parts generalizing ctx with
  | nil => rfl
  | cons f parts ih =>
    rw [List.map_cons, List.foldl_cons, ih rfl]
    obtain ⟨parser, request, tmp, done⟩ := ctx
    obtain rfl : tmp = [] := h
    rfl

lemma foldl_other {i : RequestItem} {calls : List HttpCallback} (h : DeliveredItem.Of i (.other calls)) :
    calls.foldl HttpRequestContext.callback ctx = ctx := by
  have hbody : ∀ {cs : List HttpCallback}, (∀ c ∈ cs, c.1 = .body) →
      cs.foldl HttpRequestContext.callback ctx = ctx := by
    intro cs hcs
    induction cs with
    | nil => rfl
    | cons c cs ih =>
      obtain ⟨k, data⟩ := c
      obtain rfl : k = .body := hcs _ List.mem_cons_self
      exact ih fun c hc => hcs c (List.mem_cons_of_mem _ hc)
  cases i with
  | header name colon value => exact h.elim
  | markup bs =>
    obtain rfl : calls = [] := h
    rfl
  | headersComplete =>
    obtain rfl : calls = [(.headersComplete, [])] := h
    rfl
  | body bs => exact hbody h

/-- **What the context makes of the items**: it inserts the header lines, as they are delivered. -/
lemma foldl_items {is : List RequestItem} {ds : List DeliveredItem} (h : List.Forall₂ DeliveredItem.Of is ds)
    (htmp : ctx.tmpHeaderField = []) :
    (ds.flatMap DeliveredItem.calls).foldl HttpRequestContext.callback ctx =
      { ctx with httpRequest := { ctx.httpRequest with
        headers := insertAll ctx.httpRequest.headers ((ds.filterMap DeliveredItem.line).flatMap fun l =>
          (l.1.getLast?.getD [], l.2.headD []) :: l.2.tail.map ([], ·)) } } := by
  induction h generalizing ctx with
  | nil => rfl
  | @cons i d is ds hid _ ih =>
    rw [List.flatMap_cons, List.foldl_append]
    cases d with
    | other calls =>
      rw [DeliveredItem.calls, foldl_other hid, ih htmp]
      rfl
    | header names values =>
      obtain ⟨hnames, hvalues⟩ : names ≠ [] ∧ values ≠ [] := by
        cases i with
        | header name colon value => exact ⟨hid.1.ne_nil, hid.2.ne_nil⟩
        | markup bs => exact hid.elim
        | headersComplete => exact hid.elim
        | body bs => exact hid.elim
      obtain ⟨v, values, rfl⟩ := List.exists_cons_of_ne_nil hvalues
      rw [DeliveredItem.calls, List.foldl_append, foldl_fields hnames, List.map_cons, List.foldl_cons,
        foldl_values values rfl, ih rfl]
      show ({ ctx with httpRequest := _, tmpHeaderField := _ } : HttpRequestContext p) = _
      rw [List.filterMap_cons, DeliveredItem.line, List.flatMap_cons, insertAll_append]
      obtain ⟨parser, request, tmp, done⟩ := ctx
      obtain rfl : tmp = [] := htmp
      rfl

/-- **A delivery leaves the last fragment of the URL as the path**, and the map filled with what it inserts. -/
theorem foldl_calls {r : Request} (d : Delivery r) (htmp : ctx.tmpHeaderField = []) :
    d.calls.foldl HttpRequestContext.callback ctx =
      { ctx with
        httpRequest := { ctx.httpRequest with
          path := d.url.getLast d.url_parts.ne_nil
          headers := insertAll ctx.httpRequest.headers d.inserted }
        done := true } := by
  rw [Delivery.calls, List.foldl_append, List.foldl_append, foldl_url d.url_parts.ne_nil,
    foldl_items d.items_of (by exact htmp)]
  rfl

end Context

end Zutils.Net.Http
