import Zutils.Lib.Run
import Zutils.Net.Http.Request
import Zutils.Net.IoBufferSpec

/-!
# Requests on a connection

What `http_parser` promises is `Follows`: whatever portions a document comes in, it consumes them, and it makes the
calls that a scanner of the document makes.

`OnHttpDataParse` answers 1 for a read with which no request has ever been completed, which closes the connection. As
soon as one has been, `done_` stays set, and it answers 0 for every read, whether a request is complete or not. The
context is not emptied either: a header that has been seen stays, and keeps its value. So the delegate is called as it
should be when each read takes in the rest of one request and no URL byte of the next, no header is folded, and no
request drops or changes a header of an earlier one (`each_request_once`).
-/

namespace Zutils.Net.Http

open Zutils.Lib

/-! ### The parser -/

/-- The numbers of bytes consumed and the calls made for the portions. -/
def trace (p : HttpParser) : p.State → List (List UInt8) → List (ℕ × List HttpCallback)
  | _, [] => []
  | st, c :: cs => ((p.execute st c).2.1, (p.execute st c).2.2) :: trace p (p.execute st c).1 cs

/-- The same for a scanner of the document. -/
def scanTrace : List HttpPiece → List (List UInt8) → List (ℕ × List HttpCallback)
  | _, [] => []
  | ps, c :: cs => (c.length, (scan ps c.length).1) :: scanTrace (scan ps c.length).2 cs

/-- In the state `st`, the parser takes what comes for the document `ps`. -/
def Follows (p : HttpParser) (st : p.State) (ps : List HttpPiece) : Prop :=
  ∀ portions : List (List UInt8), (∀ c ∈ portions, c ≠ []) → portions.flatten <+: bytesOf ps →
    trace p st portions = scanTrace ps portions

section Parser

variable {p : HttpParser} {st : p.State} {ps : List HttpPiece} {c : List UInt8}

lemma Follows.execute (h : Follows p st ps) (hc : c ≠ []) (hpre : c <+: bytesOf ps) :
    (p.execute st c).2.1 = c.length ∧ (p.execute st c).2.2 = (scan ps c.length).1 ∧
      Follows p (p.execute st c).1 (scan ps c.length).2 := by
  have hone := h [c] (by simpa using hc) (by simpa using hpre)
  obtain ⟨hhead, -⟩ := List.cons.inj hone
  obtain ⟨hlen, hcalls⟩ := Prod.mk.inj hhead
  refine ⟨hlen, hcalls, fun portions hne hflat => ?_⟩
  obtain ⟨later, hlater⟩ := hpre
  rw [bytesOf_scan, ← hlater, List.drop_left' rfl] at hflat
  have hcons : (c :: portions).flatten <+: bytesOf ps := by
    rw [List.flatten_cons, ← hlater]
    exact List.prefix_append_right_inj c |>.2 hflat
  have hall := h (c :: portions) (by simpa using ⟨hc, hne⟩) hcons
  exact (List.cons.inj hall).2

/-- No bytes in front of a document make no difference. -/
lemma Follows.silent_nil (h : Follows p st ps) : Follows p st (.silent [] :: ps) := by
  intro portions hne hflat
  rw [h portions hne (by simpa [Piece.bytes] using hflat)]
  cases portions with
  | nil => rfl
  | cons c cs =>
    have hscan : scan (.silent [] :: ps) c.length = scan ps c.length := by
      rw [scan, if_neg (by simp)]
      rfl
    rw [scanTrace, scanTrace, hscan]

end Parser

/-- The parser of one document, which knows what is to come. -/
def parserOf (ps : List HttpPiece) : HttpParser where
  State := List HttpPiece
  init := ps
  execute ps c := ((scan ps c.length).2, c.length, (scan ps c.length).1)

lemma follows_parserOf (ps : List HttpPiece) : Follows (parserOf ps) (parserOf ps).init ps := by
  intro portions _ _
  have htrace : ∀ (cs : List (List UInt8)) (qs : List HttpPiece), trace (parserOf ps) qs cs = scanTrace qs cs := by
    intro cs
    induction cs with
    | nil => exact fun _ => rfl
    | cons c cs ih => exact fun qs => congrArg _ (ih _)
  exact htrace portions ps

/-! ### Reads -/

/-- The document that requests make one behind the other. -/
def document (rs : List Request) : List HttpPiece := rs.flatMap Request.pieces

/-- Each read takes in the rest of one request, of whose start `taken` has been read, and of the next request no more
than its start. The request behind the last of the list is `last`. -/
inductive OneEach (last : Request) : List UInt8 → List Request → List (List UInt8) → Prop
  | nil {taken : List UInt8} : OneEach last taken [] []
  | cons {taken left taken' left' : List UInt8} {r : Request} {rs : List Request} {reads : List (List UInt8)} :
      r.start = taken ++ left → (rs.headD last).start = taken' ++ left' → OneEach last taken' rs reads →
      OneEach last taken (r :: rs) ((left ++ bytesOf r.rest ++ taken') :: reads)

/-- `IOHandler::Read` gets these bytes, on a connection that has not been closed. -/
def Serves {p : HttpParser} (delegate : List HttpServerRequestInfo → ℤ) (c : HttpConnection p) (chunk : List UInt8)
    (c' : HttpConnection p) : Prop :=
  c.closed = false ∧ c.read delegate (.bytes chunk) = .ok c'

/-! ### One read -/

section Read

variable {p : HttpParser} {c : HttpConnection p} {chunk : List UInt8} {st : p.State} {calls : List HttpCallback}

/-- The context after the callbacks that the parser makes on its way to `st`. -/
def called (ctx : HttpRequestContext p) (st : p.State) (calls : List HttpCallback) : HttpRequestContext p :=
  calls.foldl HttpRequestContext.callback { ctx with httpParser := st }

/-- The connection when `OnHttpDataParse` has left `ctx` with `done_` set. -/
def dispatched (delegate : List HttpServerRequestInfo → ℤ) (c : HttpConnection p) (ctx : HttpRequestContext p)
    (buf : IOBuffer) : HttpConnection p :=
  let ctx := { ctx with httpRequest := { ctx.httpRequest with method := HttpRequestContext.kGet } }
  let seen := c.seen ++ [ctx.httpRequest]
  ⟨ctx, buf, seen, delegate seen, c.closed || delegate seen != 0⟩

/-- The connection when it has left it otherwise. -/
def refused (c : HttpConnection p) (ctx : HttpRequestContext p) (buf : IOBuffer) : HttpConnection p :=
  ⟨ctx, buf, c.seen, 1, true⟩

/-- **A read that the parser takes in** empties the buffer, and calls the delegate if `done_` is set behind it. -/
theorem read_spec (hok : c.readBuf.Ok) (hempty : c.readBuf.readable = []) (hne : chunk ≠ [])
    (hsize : chunk.length < 2 ^ 31) (hoff : chunk.length ≤ c.readBuf.offered)
    (hexec : p.execute c.ctx.httpParser chunk = (st, chunk.length, calls)) :
    ∃ buf : IOBuffer, buf.Ok ∧ buf.readable = [] ∧ ∀ delegate,
      c.read delegate (.bytes chunk) = .ok (if (called c.ctx st calls).done = true then
        dispatched delegate c (called c.ctx st calls) buf else refused c (called c.ctx st calls) buf) := by
  obtain ⟨b, hread, e⟩ := IOBuffer.readFd_bytes_spec hok hoff
  rw [hempty, List.nil_append] at e
  have hlen : b.readableBytes = chunk.length := by
    rw [← e.ok.readable_length, e.queue]
  have hpeek : b.peek b.readableBytes = chunk := e.queue
  have hint : (chunk.length : ℤ).bmod (2 ^ 32) = chunk.length := Int.bmod_eq_of_le (by omega) (by omega)
  have hpos : 0 < chunk.length := List.length_pos_iff.2 hne
  obtain ⟨buf, hretrieve, e'⟩ := IOBuffer.retrieve_spec e.ok hlen.ge
  have hqueue : buf.readable = [] := by
    rw [e'.queue, e.queue, List.drop_length]
  have hparse : c.ctx.onHttpDataParse b = if (called c.ctx st calls).done = true then
      .ok (0, { called c.ctx st calls with
        httpRequest := { (called c.ctx st calls).httpRequest with method := HttpRequestContext.kGet } }, buf)
      else .ok (1, called c.ctx st calls, buf) := by
    unfold HttpRequestContext.onHttpDataParse
    rw [hpeek, hexec]
    simp only [hint]
    rw [if_pos (by omega), Int.toNat_natCast, hretrieve, ok_bind]
    rfl
  refine ⟨buf, e'.ok, hqueue, fun delegate => ?_⟩
  rw [HttpConnection.read, hread, ok_bind]
  simp only [hint]
  rw [if_pos (by omega), HttpConnection.onDataReceived, hparse]
  by_cases hdone : (called c.ctx st calls).done = true
  · rw [if_pos hdone, if_pos hdone]
    rfl
  · rw [if_neg hdone, if_neg hdone, refused, ← Bool.or_true c.closed]
    rfl

end Read

/-! ### All reads of a connection -/

/-- The document that is left when of the next request only `left` of its start is: that request is the first of the
list, or `last`. -/
def remaining (last : Request) (left : List UInt8) (rs : List Request) : List HttpPiece :=
  .silent left :: (rs.headD last).rest ++ document (rs ++ [last]).tail

lemma document_eq (last : Request) (rs : List Request) :
    document (rs ++ [last]) = remaining last (rs.headD last).start rs := by
  cases rs <;> rfl

lemma remaining_cons (last r : Request) (left : List UInt8) (rs : List Request) :
    remaining last left (r :: rs) = (.silent left :: r.rest) ++ remaining last (rs.headD last).start rs := by
  rw [← document_eq]
  rfl

/-- What a request and what the delegate gets are about. -/
def Request.content (r : Request) : List UInt8 × HeadersMap := (r.path, r.headers)

def received (i : HttpServerRequestInfo) : List UInt8 × HeadersMap := (i.path, i.headers)

section Runs

variable {p : HttpParser} {delegate : List HttpServerRequestInfo → ℤ} {c : HttpConnection p} {last r : Request}
  {rs : List Request} {taken left taken' : List UInt8}

/-- The connection between two requests: `rs` are still to come, and of the start of the next one `left` is. -/
structure Between (last : Request) (rs : List Request) (left : List UInt8) (c : HttpConnection p) : Prop where
  ok : c.readBuf.Ok
  empty : c.readBuf.readable = []
  tmp : c.ctx.tmpHeaderField = []
  follows : Follows p c.ctx.httpParser (remaining last left rs)
  headers : ∀ r ∈ rs, ∀ x v, c.ctx.httpRequest.headers x = some v → r.headers x = some v
  unfolded : ∀ r ∈ rs, r.Unfolded

lemma called_atOnce {ctx : HttpRequestContext p} (htmp : ctx.tmpHeaderField = []) (st : p.State) (hunfolded : r.Unfolded)
    (hheaders : ∀ x v, ctx.httpRequest.headers x = some v → r.headers x = some v) :
    called ctx st (Delivery.atOnce r).calls =
      ⟨st, { ctx.httpRequest with path := r.path, headers := r.headers }, ctx.tmpHeaderField, true⟩ := by
  have hown : insertAll ctx.httpRequest.headers (Delivery.atOnce r).inserted = r.headers := by
    funext x
    rw [Delivery.inserted_of_unfolded hunfolded, insertAll_apply]
    rcases hx : ctx.httpRequest.headers x with _ | v
    · rfl
    · exact (hheaders x v hx).symm
  have hcalls := foldl_calls (p := p) (Delivery.atOnce r)
    (show ({ ctx with httpParser := st } : HttpRequestContext p).tmpHeaderField = [] from htmp)
  dsimp only at hcalls
  rw [hown] at hcalls
  exact hcalls

/-- The portion with the rest of a request and some of the next start is called for like the request. -/
lemma scan_remaining (r : Request) (left : List UInt8) {left' : List UInt8}
    (hnext : (rs.headD last).start = taken' ++ left') :
    left ++ bytesOf r.rest ++ taken' <+: bytesOf (remaining last left (r :: rs)) ∧
      (scan (remaining last left (r :: rs)) (left ++ bytesOf r.rest ++ taken').length).1 = r.callsAtOnce ∧
      ∀ (p : HttpParser) (st : p.State),
        Follows p st (scan (remaining last left (r :: rs)) (left ++ bytesOf r.rest ++ taken').length).2 →
          Follows p st (remaining last left' rs) := by
  have hlen : (left ++ bytesOf r.rest ++ taken').length =
      (bytesOf (.silent left :: r.rest)).length + taken'.length := List.length_append
  have hclosed : Closed (.silent left :: r.rest) := r.closed
  have hle : taken'.length ≤ (rs.headD last).start.length := by
    rw [hnext, List.length_append]
    omega
  have hdrop : (rs.headD last).start.drop taken'.length = left' := by
    rw [hnext, List.drop_left' rfl]
  obtain ⟨hcalls, hrest⟩ : (scan (remaining last (rs.headD last).start rs) taken'.length).1 = [] ∧
      ((scan (remaining last (rs.headD last).start rs) taken'.length).2 = remaining last left' rs ∨
        left' = [] ∧ (scan (remaining last (rs.headD last).start rs) taken'.length).2 =
          (rs.headD last).rest ++ document (rs ++ [last]).tail) := by
    have hscan := scan_silent_token hle .url (rs.headD last).path
      (.silent (rs.headD last).version :: ((rs.headD last).items.flatMap RequestItem.pieces ++
        [.mark .messageComplete]) ++ document (rs ++ [last]).tail)
    rwa [hdrop] at hscan
  rw [remaining_cons, hlen, scan_append hclosed]
  refine ⟨?_, ?_, fun p st hst => ?_⟩
  · rw [bytesOf_append, remaining, List.cons_append, bytesOf_cons, Piece.bytes, hnext]
    simp [Piece.bytes]
  · exact (congrArg (callsOf (.silent left :: r.rest) ++ ·) hcalls).trans (List.append_nil _)
  · rcases hrest with hrest | ⟨rfl, hrest⟩
    · rwa [hrest] at hst
    · rw [hrest] at hst
      exact hst.silent_nil

/-- **The read of one request** calls the delegate once, with the path and the headers of that request. -/
theorem Between.read (h : Between last (r :: rs) left c) (delegate : List HttpServerRequestInfo → ℤ)
    {left' : List UInt8}
    (hnext : (rs.headD last).start = taken' ++ left')
    (hheaders : ∀ r' ∈ rs, ∀ x v, r.headers x = some v → r'.headers x = some v)
    (hsize : (left ++ bytesOf r.rest ++ taken').length < 2 ^ 31)
    (hoff : (left ++ bytesOf r.rest ++ taken').length ≤ c.readBuf.offered) (hopen : c.closed = false) :
    ∃ c' i, Serves delegate c (left ++ bytesOf r.rest ++ taken') c' ∧ Between last rs left' c' ∧
      c'.seen = c.seen ++ [i] ∧ received i = r.content ∧ c'.ret = delegate c'.seen ∧
      c'.closed = (c'.ret != 0) := by
  obtain ⟨hpre, hcalls, hfollows⟩ := scan_remaining r left hnext
  have hne : left ++ bytesOf r.rest ++ taken' ≠ [] := by
    simp [Request.rest, Piece.bytes, r.path_ne]
  obtain ⟨hconsumed, hmade, hafter⟩ := h.follows.execute hne hpre
  rw [hcalls, ← Delivery.atOnce_calls] at hmade
  have hexec : p.execute c.ctx.httpParser (left ++ bytesOf r.rest ++ taken') =
      ((p.execute c.ctx.httpParser (left ++ bytesOf r.rest ++ taken')).1, (left ++ bytesOf r.rest ++ taken').length,
        (Delivery.atOnce r).calls) := Prod.ext rfl (Prod.ext hconsumed hmade)
  obtain ⟨buf, hok, hempty, hread⟩ := read_spec h.ok h.empty hne hsize hoff hexec
  -- what the context has collected is the request
  have hctx := called_atOnce h.tmp (p.execute c.ctx.httpParser (left ++ bytesOf r.rest ++ taken')).1
    (h.unfolded r List.mem_cons_self)
    (h.headers r List.mem_cons_self)
  have hread := hread delegate
  rw [hctx, if_pos rfl] at hread
  refine ⟨_, _, ⟨hopen, hread⟩, ⟨hok, hempty, h.tmp, hfollows p _ hafter, hheaders,
    fun r' hr' => h.unfolded r' (List.mem_cons_of_mem _ hr')⟩, rfl, rfl, rfl, ?_⟩
  rw [dispatched, hopen]
  rfl

lemma length_le_of_serves {chunk : List UInt8} {c' : HttpConnection p} (h : Serves delegate c chunk c') :
    chunk.length ≤ c.readBuf.offered := by
  by_contra hlt
  have hread := h.2
  rw [HttpConnection.read, IOBuffer.readFd, if_pos (by omega)] at hread
  cases hread

/-- The first reads have served the first requests, one each. -/
def Served (delegate : List HttpServerRequestInfo → ℤ) (last : Request) (rs : List Request)
    (reads as : List (List UInt8)) (c : HttpConnection p) : Prop :=
  ∃ rs₁ rs₂ taken left bs, rs = rs₁ ++ rs₂ ∧ rs₁.length = as.length ∧ reads = as ++ bs ∧ OneEach last taken rs₂ bs ∧
    (rs₂.headD last).start = taken ++ left ∧ Between last rs₂ left c ∧
    c.seen.map received = rs₁.map Request.content ∧ (as ≠ [] → c.ret = delegate c.seen) ∧ c.closed = (c.ret != 0)

lemma Served.step {reads as : List (List UInt8)} {chunk : List UInt8} (h : Served delegate last rs reads as c)
    (hheaders : rs.Pairwise fun r r' => ∀ x v, r.headers x = some v → r'.headers x = some v)
    (hsize : ∀ c ∈ reads, c.length < 2 ^ 31) (hpre : as ++ [chunk] <+: reads)
    (hoff : chunk.length ≤ c.readBuf.offered) (hopen : c.closed = false) :
    ∃ c', Serves delegate c chunk c' ∧ Served delegate last rs reads (as ++ [chunk]) c' := by
  obtain ⟨rs₁, rs₂, taken, left, bs, rfl, hlen, rfl, hone, hstart, hbetween, hseen, -, -⟩ := h
  obtain ⟨bs', hbs⟩ := hpre
  rw [List.append_assoc] at hbs
  obtain rfl := List.append_cancel_left hbs
  cases hone with
  | @cons _ left₂ taken' left' r rs₃ _ hstart₂ hnext hrest =>
    obtain rfl : left = left₂ := List.append_cancel_left (hstart.symm.trans hstart₂)
    have hlater := (List.pairwise_append.1 hheaders).2.1
    obtain ⟨c', i, hserves, hbetween', hseen', hi, hret, hclosed⟩ :=
      hbetween.read delegate hnext (List.pairwise_cons.1 hlater).1 (hsize _ (by simp)) hoff hopen
    refine ⟨c', hserves, rs₁ ++ [r], rs₃, taken', left', bs', ?_, ?_, ?_, hrest, hnext, hbetween', ?_, fun _ => hret,
      hclosed⟩
    · rw [List.append_assoc]
      rfl
    · rw [List.length_append, List.length_append, hlen]
      rfl
    · exact (List.append_assoc _ _ _).symm
    · rw [hseen', List.map_append, List.map_append, hseen, List.map_singleton, List.map_singleton, hi]

lemma served_nil {reads : List (List UInt8)} (done : Bool) (hparser : Follows p p.init (document (rs ++ [last])))
    (hreads : OneEach last [] rs reads) (hunfolded : ∀ r ∈ rs, r.Unfolded) : Served delegate last rs reads [] (.new p done) := by
  refine ⟨[], rs, [], (rs.headD last).start, reads, rfl, rfl, rfl, hreads, rfl, ?_, rfl, fun h => absurd rfl h, rfl⟩
  refine ⟨IOBuffer.new_ok _, IOBuffer.new_readable _, rfl, ?_, fun r _ x v hv => (by cases hv), hunfolded⟩
  rwa [← document_eq]

end Runs

/-- **One call for each request**, under the condition that the code needs. The parser takes in the requests `rs` and
some of the start of another one, in reads of which each takes in the rest of one request and no URL byte of the next, no
header value is folded, and each header of a request is a header of all later ones, with the same value. Then in every
state of the connection, whatever `done_` was at first, the delegate has been called once for each read, with the path
and the headers of the request that it took in; `OnDataReceived` has returned what the delegate returned; the connection
has been closed only for that; and the next read is served. -/
theorem each_request_once (p : HttpParser) (delegate : List HttpServerRequestInfo → ℤ) (done : Bool)
    (rs : List Request) (last : Request) (reads : List (List UInt8))
    (hparser : Follows p p.init (document (rs ++ [last]))) (hreads : OneEach last [] rs reads)
    (hunfolded : ∀ r ∈ rs, r.Unfolded)
    (hheaders : rs.Pairwise fun r r' => ∀ x v, r.headers x = some v → r'.headers x = some v)
    (hsize : ∀ c ∈ reads, c.length < 2 ^ 31) {as : List (List UInt8)} {c : HttpConnection p}
    (hrun : Run (Serves delegate) (.new p done) as c) (has : as <+: reads) :
    c.seen.map received = (rs.take as.length).map Request.content ∧ (as = reads → as.length = rs.length) ∧
      (as ≠ [] → c.ret = delegate c.seen) ∧ (c.closed = true ↔ c.ret ≠ 0) ∧
      ∀ chunk, as ++ [chunk] <+: reads → c.closed = false → chunk.length ≤ c.readBuf.offered →
        ∃ c', Serves delegate c chunk c' := by
  have hinv : as <+: reads → Served delegate last rs reads as c := by
    refine hrun.inv (P := fun as c => as <+: reads → Served delegate last rs reads as c)
      (fun _ => served_nil done hparser hreads hunfolded) ?_
    intro as c chunk c' ih hserves hpre
    have hserved := ih ((List.prefix_append as [chunk]).trans hpre)
    obtain ⟨c'', hserves', hserved'⟩ :=
      hserved.step hheaders hsize hpre (length_le_of_serves hserves) hserves.1
    obtain rfl := Except.ok.inj (hserves.2.symm.trans hserves'.2)
    exact hserved'
  have hserved := hinv has
  refine ⟨?_, ?_, ?_, ?_, fun chunk hpre hopen hoff => ?_⟩
  · obtain ⟨rs₁, rs₂, -, -, -, rfl, hlen, -, -, -, -, hseen, -⟩ := hserved
    rw [hseen, List.take_left' hlen]
  · rintro rfl
    obtain ⟨rs₁, rs₂, taken, -, bs, rfl, hlen, has', hone, -⟩ := hserved
    obtain rfl : bs = [] := List.append_right_eq_self.1 has'.symm
    cases hone
    rw [List.append_nil, hlen]
  · obtain ⟨-, -, -, -, -, -, -, -, -, -, -, -, hret, -⟩ := hserved
    exact hret
  · obtain ⟨-, -, -, -, -, -, -, -, -, -, -, -, -, hclosed⟩ := hserved
    rw [hclosed, bne_iff_ne]
  · obtain ⟨c', hserves, -⟩ := hserved.step hheaders hsize hpre hoff hopen
    exact ⟨c', hserves⟩

lemma kInitialSize_le_offered (p : HttpParser) (done : Bool) :
    1024 ≤ (HttpConnection.new p done).readBuf.offered := by
  have hwritable : (HttpConnection.new p done).readBuf.writableBytes = 1024 := IOBuffer.new_writableBytes 1024
  rw [IOBuffer.offered, hwritable]
  exact Nat.le_add_right _ _

/-- Two requests with the same header, the second of which begins in the read of the first. -/
theorem each_request_once_two :
    let r₁ := Request.get [47] [([72], [97])] (by decide) (by decide)
    let r₂ := Request.get [47, 98] [([72], [97])] (by decide) (by decide)
    let chunk := [71, 69, 84, 32] ++ bytesOf r₁.rest ++ [71, 69]
    ∃ c, Run (Serves fun _ => 0) (.new (parserOf (document ([r₁, r₂] ++ [r₁]))) false) [chunk] c ∧
      c.seen.map received = [r₁.content] ∧ c.ret = 0 := by
  intro r₁ r₂ chunk
  have htwo : OneEach r₁ [71, 69] [r₂] [[84, 32] ++ bytesOf r₂.rest ++ []] := .cons rfl rfl .nil
  have hreads : OneEach r₁ [] [r₁, r₂] [chunk, [84, 32] ++ bytesOf r₂.rest ++ []] := .cons rfl rfl htwo
  have hheaders : [r₁, r₂].Pairwise fun r r' => ∀ x v, r.headers x = some v → r'.headers x = some v :=
    List.pairwise_pair.2 fun _ _ hx => hx
  have honce := @each_request_once (parserOf (document ([r₁, r₂] ++ [r₁]))) (fun _ => 0) false [r₁, r₂] r₁
    [chunk, [84, 32] ++ bytesOf r₂.rest ++ []] (follows_parserOf _) hreads (by decide) hheaders
    (by decide)
  obtain ⟨-, -, -, -, hnext⟩ := honce .nil (List.nil_prefix)
  obtain ⟨c, hserves⟩ := hnext chunk ⟨[[84, 32] ++ bytesOf r₂.rest ++ []], rfl⟩ rfl
    (Nat.le_trans (by decide) (kInitialSize_le_offered _ false))
  have hrun : Run (Serves fun _ => 0) (.new (parserOf (document ([r₁, r₂] ++ [r₁]))) false) [chunk] c :=
    Run.nil.snoc hserves
  obtain ⟨hseen, -, hret, -⟩ := honce hrun ⟨[[84, 32] ++ bytesOf r₂.rest ++ []], rfl⟩
  exact ⟨c, hrun, hseen, hret (List.cons_ne_nil _ _)⟩

/-- **A request that is still incomplete closes the connection**: the first read gets `GE`, `OnDataReceived` returns 1,
and the delegate has not been called. -/
theorem incomplete_request_closes :
    let r := Request.get [47] [] (by decide) (by decide)
    let p := parserOf (document [r])
    Follows p p.init (document ([] ++ [r])) ∧ [71, 69] <+: bytesOf (document [r]) ∧
      (∃ c, Run (Serves fun _ => 0) (.new p false) [[71, 69]] c ∧ c.seen = [] ∧ c.ret = 1 ∧ c.closed = true) ∧
      ¬ ∀ c, Run (Serves fun _ => 0) (.new p false) [[71, 69]] c → c.ret = 0 ∧ c.closed = false := by
  intro r p
  have hoff : ([71, 69] : List UInt8).length ≤ (HttpConnection.new p false).readBuf.offered :=
    Nat.le_trans (by decide) (kInitialSize_le_offered p false)
  have hexec : p.execute p.init [71, 69] = ((p.execute p.init [71, 69]).1, ([71, 69] : List UInt8).length, []) := rfl
  obtain ⟨buf, -, -, hread⟩ := read_spec (c := .new p false) (IOBuffer.new_ok _) (IOBuffer.new_readable _)
    (List.cons_ne_nil _ _) (by decide) hoff hexec
  have hrun : Run (Serves fun _ => 0) (.new p false) [[71, 69]] (refused (.new p false) _ buf) :=
    Run.nil.snoc ⟨rfl, hread fun _ => 0⟩
  exact ⟨follows_parserOf _, ⟨_, rfl⟩, ⟨_, hrun, rfl, rfl, rfl⟩, fun h => Bool.noConfusion (h _ hrun).2⟩

end Zutils.Net.Http
