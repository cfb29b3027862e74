import Zutils.Base.StringUtil
import Zutils.Net.Http.Dispatch

/-!
# What the delegate gets of a request

`HttpServerRequestInfo` is to have the method, the path, the body and the headers of the request, these under names in
lower case, as `GetHeaderValue` looks them up. `OnHttpDataParse` sets the method to `GET` for every request, `DoBody`
drops the body, and the names are inserted as they were sent. A connection keeps the headers of its earlier requests as
well. `delivered_faithful_iff` says for which requests, on a connection in which state, none of this shows.
-/

namespace Zutils.Net

open Zutils.Lib

/-- `GetHeaderValue(header_name)`. -/
def HttpServerRequestInfo.getHeaderValue (info : HttpServerRequestInfo) (headerName : List UInt8) :
    Except Fault (List UInt8) := do
  dcheck (stringToLowerASCII headerName = headerName)
  return (info.headers headerName).getD []

namespace Http

/-- The bytes of a body, for an item that is one. -/
def RequestItem.content : RequestItem → List UInt8
  | .body bs => bs
  | _ => []

/-- The method: what is in front of the blank. -/
def Request.method (r : Request) : List UInt8 := r.start.takeWhile (· ≠ 32)

def Request.body (r : Request) : List UInt8 := r.items.flatMap RequestItem.content

/-- **A faithful account of a request.** -/
structure Faithful (r : Request) (info : HttpServerRequestInfo) : Prop where
  method : info.method = r.method
  path : info.path = r.path
  data : info.data = r.body
  lower : ∀ key value, info.headers key = some value → stringToLowerASCII key = key
  /-- Each header that was sent is found, however its name is spelt. -/
  found : ∀ l ∈ r.lines, ∀ name, stringToLowerASCII name = stringToLowerASCII l.1 →
    info.getHeaderValue (stringToLowerASCII name) = .ok l.2

/-- Nothing of what the code drops or changes is in the request: it is a `GET` without a body, the names of its headers,
and of those that the connection has kept, are in lower case, with no name under two values, and no value is folded that
is the first under a name. -/
structure Plain (r : Request) (kept : HeadersMap) : Prop where
  method : r.method = HttpRequestContext.kGet
  body : r.body = []
  lower : ∀ l ∈ r.lines, stringToLowerASCII l.1 = l.1
  kept_lower : ∀ key value, kept key = some value → stringToLowerASCII key = key
  kept_same : ∀ l ∈ r.lines, ∀ value, kept l.1 = some value → value = l.2
  same : ∀ l ∈ r.lines, ∀ l' ∈ r.lines, l.1 = l'.1 → l.2 = l'.2
  unfolded : ∀ name lines, kept name = none → r.foldedLines.lookup name = some lines → lines.length = 1

section Context

variable {p : HttpParser}

/-- **What the context makes of the items** of a request that is read at once: it inserts the first line of each value
under its name, and the others under the empty name. -/
lemma foldl_atOnce_items (is : List RequestItem) (hvalues : ∀ l ∈ is.filterMap RequestItem.folded, l.2 ≠ [])
    (ctx : HttpRequestContext p) :
    ((callsOf (is.flatMap RequestItem.pieces)).foldl HttpRequestContext.callback ctx).httpRequest =
      { ctx.httpRequest with
        headers := insertAll ctx.httpRequest.headers ((is.filterMap RequestItem.folded).flatMap fun l =>
          (l.1, l.2.headD []) :: l.2.tail.map ([], ·)) } := by
  induction is generalizing ctx with
  | nil => rfl
  | cons i is ih =>
    have hrest : ∀ l ∈ is.filterMap RequestItem.folded, l.2 ≠ [] := by
      intro l hl
      refine hvalues l ?_
      rw [List.filterMap_cons]
      split
      · exact hl
      · exact List.mem_cons_of_mem _ hl
    rw [List.flatMap_cons, callsOf_append, List.foldl_append, ih hrest]
    cases i with
    | header name colon value =>
      have hvalue : value.map Prod.fst ≠ [] := hvalues (name, value.map Prod.fst) List.mem_cons_self
      have hcalls : callsOf (RequestItem.header name colon value).pieces =
          (.headerField, name) :: (value.map Prod.fst).map (.headerValue, ·) := callsOf_header name colon value
      obtain ⟨f, fs, hfs⟩ := List.exists_cons_of_ne_nil hvalue
      rw [hcalls, hfs, List.foldl_cons, List.map_cons, List.foldl_cons, foldl_values fs rfl]
      show ({ ctx.httpRequest with headers := _ } : HttpServerRequestInfo) = _
      rw [List.filterMap_cons, RequestItem.folded, hfs, List.flatMap_cons, insertAll_append]
      rfl
    | markup bs => rfl
    | headersComplete => rfl
    | body bs => rfl

lemma foldl_atOnce (r : Request) (ctx : HttpRequestContext p) :
    (r.callsAtOnce.foldl HttpRequestContext.callback ctx).httpRequest = { ctx.httpRequest with
        path := r.path, headers := insertAll ctx.httpRequest.headers (Delivery.atOnce r).inserted } ∧
      (r.callsAtOnce.foldl HttpRequestContext.callback ctx).done = true := by
  have hcalls : r.callsAtOnce =
      (.url, r.path) :: (callsOf (r.items.flatMap RequestItem.pieces) ++ [(.messageComplete, [])]) := by
    rw [Request.callsAtOnce, Request.rest, callsOf, List.filterMap_cons, List.filterMap_cons, ← callsOf, callsOf_append]
    rfl
  rw [hcalls, List.foldl_cons, List.foldl_append]
  refine ⟨?_, rfl⟩
  show ((callsOf (r.items.flatMap RequestItem.pieces)).foldl HttpRequestContext.callback
    (ctx.doUrl r.path)).httpRequest = _
  rw [foldl_atOnce_items _ fun l hl => (r.value_parts l hl).ne_nil, Delivery.inserted_atOnce]
  rfl

end Context

section Account

variable {r : Request} {kept : HeadersMap}

/-- What the delegate gets of a request, when the connection has kept these headers. -/
def account (r : Request) (kept : HeadersMap) : HttpServerRequestInfo :=
  ⟨HttpRequestContext.kGet, r.path, [], insertAll kept (Delivery.atOnce r).inserted⟩

/-- Under the name of a header is the first line of its value. -/
lemma inserted_lookup (r : Request) {x : List UInt8} (hx : x ≠ []) :
    (Delivery.atOnce r).inserted.lookup x = (r.foldedLines.lookup x).map fun fs => fs.headD [] := by
  rw [Delivery.inserted_atOnce]
  induction r.foldedLines with
  | nil => rfl
  | cons l ls ih =>
    have htail : (l.2.tail.map (([], ·) : List UInt8 → List UInt8 × List UInt8)).lookup x = none := by
      rw [List.lookup_eq_none_iff]
      intro l' hl'
      obtain ⟨f, -, rfl⟩ := List.mem_map.1 hl'
      exact bne_iff_ne.2 hx
    rw [List.flatMap_cons, List.cons_append, List.lookup_cons, List.lookup_cons, List.lookup_append, htail,
      Option.none_or, ih]
    cases x == l.1 <;> rfl

lemma account_headers (r : Request) (kept : HeadersMap) {x : List UInt8} (hx : x ≠ []) :
    (account r kept).headers x = (kept x).or ((r.foldedLines.lookup x).map fun fs => fs.headD []) := by
  rw [← inserted_lookup r hx]
  exact insertAll_apply kept _ x

lemma getHeaderValue_lower (info : HttpServerRequestInfo) (name : List UInt8) :
    info.getHeaderValue (stringToLowerASCII name) = .ok ((info.headers (stringToLowerASCII name)).getD []) := by
  rw [HttpServerRequestInfo.getHeaderValue, dcheck_true (stringToLowerASCII_idem name)]
  rfl

lemma exists_folded {l : List UInt8 × List UInt8} (hl : l ∈ r.lines) :
    ∃ fs, r.foldedLines.lookup l.1 = some fs ∧ (l.1, fs.flatten) ∈ r.lines ∧ Parts fs.flatten fs := by
  rw [Request.lines_eq] at hl
  obtain ⟨l', hl', rfl⟩ := List.mem_map.1 hl
  have hsome : (r.foldedLines.lookup l'.1).isSome = true := List.lookup_isSome_iff.2 ⟨l', hl', beq_self_eq_true l'.1⟩
  obtain ⟨fs, hfs⟩ := Option.isSome_iff_exists.1 hsome
  obtain ⟨l₁, l₂, hlines, -⟩ := List.lookup_eq_some_iff.1 hfs
  have hmem : (l'.1, fs) ∈ r.foldedLines := by
    rw [hlines]
    exact List.mem_append_right l₁ List.mem_cons_self
  refine ⟨fs, hfs, ?_, r.value_parts _ hmem⟩
  rw [Request.lines_eq]
  exact List.mem_map.2 ⟨_, hmem, rfl⟩

lemma header_eq_some {key value : List UInt8} (h : (account r kept).headers key = some value) :
    kept key = some value ∨ (∃ l ∈ r.lines, l.1 = key) ∨ key = [] := by
  by_cases hkey : key = []
  · exact .inr (.inr hkey)
  rw [account_headers r kept hkey] at h
  rcases hkept : kept key with _ | value'
  · rw [hkept, Option.none_or, Option.map_eq_some_iff] at h
    obtain ⟨fs, hfs, -⟩ := h
    obtain ⟨l₁, l₂, hlines, -⟩ := List.lookup_eq_some_iff.1 hfs
    refine .inr (.inl ⟨(key, fs.flatten), ?_, rfl⟩)
    rw [Request.lines_eq, hlines]
    exact List.mem_map.2 ⟨_, List.mem_append_right l₁ List.mem_cons_self, rfl⟩
  · rw [hkept] at h
    exact .inl h

/-- The first of several fragments is not the whole. -/
lemma Parts.head_eq_iff {bs : List UInt8} {parts : List (List UInt8)} (h : Parts bs parts) :
    parts.headD [] = bs ↔ parts.length = 1 := by
  obtain ⟨f, fs, rfl⟩ := List.exists_cons_of_ne_nil h.ne_nil
  have hflat := h.flatten
  rw [List.flatten_cons] at hflat
  constructor
  · intro hhead
    rcases h.pieces_ne with h1 | hne
    · exact h1
    rw [← hhead, List.headD_cons, List.append_right_eq_self, List.flatten_eq_nil_iff] at hflat
    have hfs : fs = [] := List.eq_nil_iff_forall_not_mem.2 fun g hg => hne g (List.mem_cons_of_mem _ hg) (hflat g hg)
    rw [hfs]
    rfl
  · intro h1
    obtain rfl : fs = [] := List.length_eq_zero_iff.1 (Nat.succ.inj h1)
    rw [List.flatten_nil, List.append_nil] at hflat
    exact hflat

/-- **The account is faithful** exactly for a plain request. -/
theorem account_faithful_iff (r : Request) (kept : HeadersMap) : Faithful r (account r kept) ↔ Plain r kept := by
  have hname : ∀ {l}, l ∈ r.lines → l.1 ≠ [] := fun hl => r.name_ne _ hl
  constructor
  · intro h
    -- a name that is not a key would not be found
    have hlower : ∀ l ∈ r.lines, stringToLowerASCII l.1 = l.1 := by
      intro l hl
      obtain ⟨fs, hfs, -⟩ := exists_folded hl
      have hkey : ∃ value, (account r kept).headers l.1 = some value := by
        rw [account_headers r kept (hname hl), hfs]
        cases kept l.1 with
        | none => exact ⟨_, rfl⟩
        | some value => exact ⟨_, rfl⟩
      obtain ⟨value, hvalue⟩ := hkey
      exact h.lower _ _ hvalue
    -- under its own name a header has its own value
    have hfound : ∀ l ∈ r.lines, ∀ value, (account r kept).headers l.1 = some value → value = l.2 := by
      intro l hl value hvalue
      have hget := h.found l hl l.1 rfl
      rw [getHeaderValue_lower, hlower l hl, hvalue] at hget
      exact Except.ok.inj hget
    refine ⟨h.method.symm, h.data.symm, hlower, ?_, ?_, ?_, ?_⟩
    · intro key value hkept
      refine h.lower key value ((insertAll_apply kept _ key).trans ?_)
      rw [hkept]
      rfl
    · intro l hl value hkept
      refine hfound l hl value ?_
      rw [account_headers r kept (hname hl), hkept]
      rfl
    · intro l hl l' hl' heq
      have hget := h.found l hl l.1 rfl
      rw [h.found l' hl' l.1 (by rw [heq])] at hget
      exact (Except.ok.inj hget).symm
    · intro name lines hkept hlines
      obtain ⟨l₁, l₂, hall, -⟩ := List.lookup_eq_some_iff.1 hlines
      have hmem : (name, lines) ∈ r.foldedLines := by
        rw [hall]
        exact List.mem_append_right l₁ List.mem_cons_self
      have hline : (name, lines.flatten) ∈ r.lines := by
        rw [Request.lines_eq]
        exact List.mem_map.2 ⟨_, hmem, rfl⟩
      refine (r.value_parts _ hmem).head_eq_iff.1 (hfound _ hline _ ?_)
      rw [account_headers r kept (hname hline), hkept, hlines]
      rfl
  · intro h
    refine ⟨h.method.symm, rfl, h.body.symm, ?_, ?_⟩
    · intro key value hvalue
      rcases header_eq_some hvalue with hkept | ⟨l, hl, rfl⟩ | rfl
      · exact h.kept_lower key value hkept
      · exact h.lower l hl
      · rfl
    · intro l hl name hspelt
      obtain ⟨fs, hfs, hline, hparts⟩ := exists_folded hl
      rw [getHeaderValue_lower, hspelt, h.lower l hl, account_headers r kept (hname hl), hfs]
      cases hkept : kept l.1 with
      | some value =>
        rw [h.kept_same l hl value hkept]
        rfl
      | none =>
        -- the first header of the name has its value in one line
        have hhead := hparts.head_eq_iff.2 (h.unfolded l.1 fs hkept hfs)
        exact congrArg Except.ok (hhead.trans (h.same _ hline l hl rfl))

end Account

/-! ### On a connection -/

section Connection

variable {p : HttpParser} {delegate : List HttpServerRequestInfo → ℤ} {c c' : HttpConnection p} {chunk : List UInt8}
  {ctx ctx' : HttpRequestContext p} {buf buf' : IOBuffer}

lemma foldl_data (calls : List HttpCallback) (ctx : HttpRequestContext p) :
    (calls.foldl HttpRequestContext.callback ctx).httpRequest.data = ctx.httpRequest.data := by
  induction calls generalizing ctx with
  | nil => rfl
  | cons call calls ih =>
    obtain ⟨kind, data⟩ := call
    rw [List.foldl_cons, ih]
    cases kind <;> rfl

/-- What holds of every connection. -/
structure Live (c : HttpConnection p) : Prop where
  ok : c.readBuf.Ok
  data : c.ctx.httpRequest.data = []

lemma onHttpDataParse_live {ret : ℤ} (h : buf.Ok) (hdata : ctx.httpRequest.data = [])
    (hparse : ctx.onHttpDataParse buf = .ok (ret, ctx', buf')) : buf'.Ok ∧ ctx'.httpRequest.data = [] := by
  have hfold := foldl_data (p.execute ctx.httpParser (buf.peek buf.readableBytes)).2.2
    { ctx with httpParser := (p.execute ctx.httpParser (buf.peek buf.readableBytes)).1 }
  rw [hdata] at hfold
  unfold HttpRequestContext.onHttpDataParse at hparse
  dsimp only at hparse
  split at hparse
  · obtain ⟨buf'', hretrieve, hparse⟩ := bind_eq_ok.1 hparse
    have hok := (IOBuffer.of_retrieve_eq_ok h hretrieve).2.ok
    split at hparse
    · cases hparse
      exact ⟨hok, hfold⟩
    · cases hparse
      exact ⟨hok, hfold⟩
  · cases hparse
    exact ⟨h, hfold⟩

/-- **One read** leaves a connection live. -/
lemma Live.serve (h : Live c) (hs : Serves delegate c chunk c') : Live c' := by
  obtain ⟨⟨n, buf⟩, hfd, hread⟩ := bind_eq_ok.1 hs.2
  have hok := (IOBuffer.Appends.spec (.inr ⟨n, hfd⟩) h.ok).ok
  dsimp only at hread
  split at hread
  · obtain ⟨c₁, hreceived, hread⟩ := bind_eq_ok.1 hread
    obtain ⟨⟨ret, ctx, buf'⟩, hparse, hreceived⟩ := bind_eq_ok.1 hreceived
    obtain ⟨hok', hdata⟩ := onHttpDataParse_live hok h.data hparse
    dsimp only at hreceived
    split at hreceived
    · cases hreceived
      cases hread
      exact ⟨hok', hdata⟩
    · cases hreceived
      cases hread
      exact ⟨hok', hdata⟩
  · cases hread
    exact ⟨hok, h.data⟩

/-- **Every connection is live.** -/
lemma live_of_run {done : Bool} {reads : List (List UInt8)} (hrun : Run (Serves delegate) (.new p done) reads c) :
    Live c :=
  hrun.inv (P := fun _ c => Live c) ⟨IOBuffer.new_ok _, rfl⟩ fun _ _ _ _ h hs => h.serve hs

lemma Live.deliver (h : Live c) (hopen : c.closed = false) (hempty : c.readBuf.readable = []) {r : Request}
    (hparser : Follows p c.ctx.httpParser r.pieces) (hsize : (bytesOf r.pieces).length < 2 ^ 31)
    (hoff : (bytesOf r.pieces).length ≤ c.readBuf.offered) (delegate : List HttpServerRequestInfo → ℤ) :
    ∃ c', Serves delegate c (bytesOf r.pieces) c' ∧
      c'.seen = c.seen ++ [account r c.ctx.httpRequest.headers] := by
  have hne : bytesOf r.pieces ≠ [] := by
    simp [Request.pieces, Request.rest, Piece.bytes, r.path_ne]
  have hclosed : Closed r.pieces := r.closed
  have hscan := scan_append hclosed [] 0
  rw [List.append_nil, Nat.add_zero] at hscan
  obtain ⟨hconsumed, hmade, -⟩ := hparser.execute hne List.prefix_rfl
  have hcalls : (p.execute c.ctx.httpParser (bytesOf r.pieces)).2.2 = r.callsAtOnce := by
    rw [hmade, hscan]
    exact List.append_nil _
  have hexec : p.execute c.ctx.httpParser (bytesOf r.pieces) =
      ((p.execute c.ctx.httpParser (bytesOf r.pieces)).1, (bytesOf r.pieces).length, r.callsAtOnce) :=
    Prod.ext rfl (Prod.ext hconsumed hcalls)
  obtain ⟨buf, -, -, hread⟩ := read_spec h.ok hempty hne hsize hoff hexec
  obtain ⟨hrequest, hdone⟩ := foldl_atOnce r
    { c.ctx with httpParser := (p.execute c.ctx.httpParser (bytesOf r.pieces)).1 }
  have hread := hread delegate
  rw [if_pos (by exact hdone)] at hread
  refine ⟨_, ⟨hopen, hread⟩, ?_⟩
  show c.seen ++ [{ (called c.ctx _ r.callsAtOnce).httpRequest with method := HttpRequestContext.kGet }] = _
  rw [called, hrequest]
  show c.seen ++ [⟨HttpRequestContext.kGet, r.path, c.ctx.httpRequest.data, _⟩] = _
  rw [h.data]
  rfl

/-- **A request is delivered faithfully** if and only if it is plain, on a connection after any reads, when the request
comes in one read, and the parser takes it in. -/
theorem delivered_faithful_iff (p : HttpParser) (delegate : List HttpServerRequestInfo → ℤ) (done : Bool)
    {reads : List (List UInt8)} {c : HttpConnection p} (hrun : Run (Serves delegate) (.new p done) reads c)
    (hopen : c.closed = false) (hempty : c.readBuf.readable = []) (r : Request)
    (hparser : Follows p c.ctx.httpParser r.pieces) (hsize : (bytesOf r.pieces).length < 2 ^ 31)
    (hoff : (bytesOf r.pieces).length ≤ c.readBuf.offered) :
    ∃ c' info, Serves delegate c (bytesOf r.pieces) c' ∧ c'.seen = c.seen ++ [info] ∧
      (Faithful r info ↔ Plain r c.ctx.httpRequest.headers) := by
  obtain ⟨c', hserves, hseen⟩ := (live_of_run hrun).deliver hopen hempty hparser hsize hoff delegate
  exact ⟨c', _, hserves, hseen, account_faithful_iff r _⟩

end Connection

/-- The first request of a connection, with one header in lower case. -/
theorem delivered_faithful_iff_get :
    let r := Request.get [47] [([97], [98])] (by decide) (by decide)
    ∃ c' info, Serves (fun _ => 0) (.new (parserOf r.pieces) false) (bytesOf r.pieces) c' ∧ c'.seen = [] ++ [info] ∧
      (Faithful r info ↔ Plain r fun _ => none) := by
  intro r
  exact delivered_faithful_iff (parserOf r.pieces) (fun _ => 0) false .nil rfl (IOBuffer.new_readable _) r
    (follows_parserOf _) (by decide) (Nat.le_trans (by decide) (kInitialSize_le_offered _ false))

/-- A `POST` with a body of one byte and the header `A: b`. -/
def postRequest : Request where
  start := [80, 79, 83, 84, 32]
  path := [47]
  version := [32, 72, 84, 84, 80, 47, 49, 46, 49, 13, 10]
  items := [Request.headerLine ([65], [98]), .markup [13, 10], .headersComplete, .body [120]]
  path_ne := by decide
  name_ne := by decide
  value_parts := by
    intro l hl
    obtain rfl : l = ([65], [[98]]) := List.mem_singleton.1 hl
    exact parts_singleton _
  closed := ⟨Nat.succ_pos _, Nat.succ_pos _, Nat.succ_pos _, trivial⟩

/-- **A `POST` is delivered as a `GET`** without its body, and its header is not found. -/
theorem post_as_get : ∃ (c' : HttpConnection (parserOf postRequest.pieces)) (info : HttpServerRequestInfo),
    Follows (parserOf postRequest.pieces) (parserOf postRequest.pieces).init postRequest.pieces ∧
    Serves (fun _ => 0) (.new (parserOf postRequest.pieces) false) (bytesOf postRequest.pieces) c' ∧
    c'.seen = [info] ∧ info.method = [71, 69, 84] ∧ postRequest.method = [80, 79, 83, 84] ∧ info.data = [] ∧
    postRequest.body = [120] ∧ info.getHeaderValue (stringToLowerASCII [65]) = .ok [] ∧
    ¬ Faithful postRequest info := by
  have hlive : Live (HttpConnection.new (parserOf postRequest.pieces) false) := ⟨IOBuffer.new_ok _, rfl⟩
  obtain ⟨c', hserves, hseen⟩ := hlive.deliver rfl (IOBuffer.new_readable _) (follows_parserOf _) (by decide)
    (Nat.le_trans (by decide) (kInitialSize_le_offered _ false)) fun _ => 0
  refine ⟨c', _, follows_parserOf _, hserves, hseen, rfl, rfl, rfl, rfl, rfl, fun h => ?_⟩
  exact absurd h.data (by decide)

end Http

end Zutils.Net
