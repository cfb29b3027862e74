import Zutils.Config.ConnString

/-!
# Parsing a connection string into an object that was used before

The scan stops at a NUL, in the view or behind it, and what a `/` means depends on the host that the object has already.
Fields that the string does not set stay as they were. `Reusable` says of a view and an object when none of this shows,
and `depends_on_view_iff` that the call depends on the view alone if and only if it does not.
-/

namespace Zutils.Config

open DBAddrInfo

/-- **The call depends on the viewed bytes alone**: it does not run out of a memory that ends with the view, and leaves
the fields that it leaves in a fresh object. -/
def DependsOnView (before view after : List UInt8) (prior : DBAddrInfo) : Prop :=
  (∃ r, parseFromConnString ⟨before ++ view, before.length, view.length⟩ prior = .ok r) ∧
    ∃ r r', parseFromConnString ⟨before ++ (view ++ after), before.length, view.length⟩ prior = .ok r ∧
      parseFromConnString ⟨before ++ (view ++ after), before.length, view.length⟩ {} = .ok r' ∧ r.2 = r'.2

namespace Segment

/-- A segment that sets the host, if there is none. -/
def isHost (g : Segment) : Bool := !g.isUser && !g.bytes.isEmpty

/-- The users of some segments. -/
def users (gs : List Segment) : List (List UInt8) := (gs.filter Segment.isUser).map name

/-- The passwords. -/
def passwds (gs : List Segment) : List (List UInt8) := (gs.filter Segment.isUser).filterMap value

/-- The segments that end at a `/`. -/
def names (gs : List Segment) : List (List UInt8) := (gs.filter fun g => !g.isUser).map bytes

/-- The port, as good as it can be read. -/
def port (g : Segment) : Option ℤ := g.value.map fun v => (stringToInt v 0).2

/-- A port that is no number. -/
def badPort (g : Segment) : Bool := g.value.any fun v => !(stringToInt v 0).1

end Segment

open Segment

/-- What is not set has its default. -/
structure KeepsDefaults (prior : DBAddrInfo) (gs : List Segment) (port : Option ℤ) (names : List (List UInt8)) :
    Prop where
  user : users gs = [] → prior.user = []
  passwd : passwds gs = [] → prior.passwd = []
  port : port = none → prior.port = 0
  dbName : names = [] → prior.dbName = []

/-- An object with the host, in front of which the segments `pre` stand and behind which `post`. -/
def ReusableHost (view : List UInt8) (prior : DBAddrInfo) (pre : List Segment) (host : Segment) (post : List Segment) :
    Prop :=
  if host.badPort then
    if prior.host = [] then KeepsDefaults prior pre host.port []
    -- the scan into a fresh object stops at the port, and this one does not
    else 0 ∈ view ∧ prior.host = host.name ∧ host.port = some prior.port ∧
      (names (pre ++ host :: post)).getLast? = some [] ∧
      (users (pre ++ host :: post)).getLast?.getD prior.user = (users pre).getLast?.getD [] ∧
      (passwds (pre ++ host :: post)).getLast?.getD prior.passwd = (passwds pre).getLast?.getD []
  else
    0 ∈ view ∧ if prior.host = [] then KeepsDefaults prior (pre ++ host :: post) host.port (names post)
    -- the string has the host and the port that are there, and a name behind them
    else prior.host = host.name ∧ prior.port = host.port.getD 0 ∧ names post ≠ [] ∧
      (users (pre ++ host :: post) = [] → prior.user = []) ∧ (passwds (pre ++ host :: post) = [] → prior.passwd = [])

/-- What stands in front of the first NUL. -/
def textOf (view : List UInt8) : List UInt8 := (CString.ofString view).bytes

/-- **Objects that the string may be parsed into**: what `ReusableHost` asks for, or no host in the string nor the object. -/
def Reusable (view : List UInt8) (prior : DBAddrInfo) : Prop :=
  match (segmentsOf (textOf view)).dropWhile fun g => !g.isHost with
  | [] => 0 ∈ view ∧ prior.host = [] ∧ KeepsDefaults prior (segmentsOf (textOf view)) none []
  | host :: post => ReusableHost view prior ((segmentsOf (textOf view)).takeWhile fun g => !g.isHost) host post

/-! ### What is read -/

section Read

variable {info : DBAddrInfo} {gs : List Segment}

lemma Segment.assignAll_append (info : DBAddrInfo) (gs gs' : List Segment) : assignAll info (gs ++ gs') =
    if (assignAll info gs).1 then assignAll (assignAll info gs).2 gs' else assignAll info gs := by
  induction gs generalizing info with
  | nil => rfl
  | cons g gs ih =>
    rw [List.cons_append, assignAll, assignAll]
    cases hgood : (g.assign info).1 with
    | true => exact ih _
    | false => simp [hgood]

lemma segmentsFrom_append (cur : List UInt8) (colon : ℕ) (text text' : List UInt8) :
    ∃ gs, segmentsFrom cur colon (text ++ text') = segmentsFrom cur colon text ++ gs := by
  induction text generalizing cur colon with
  | nil => exact ⟨_, rfl⟩
  | cons c text ih =>
    rw [List.cons_append, segmentsFrom, segmentsFrom]
    split
    · exact ih _ _
    · split
      · obtain ⟨gs, hgs⟩ := ih [] 0
        exact ⟨gs, by rw [hgs]; rfl⟩
      · split
        · obtain ⟨gs, hgs⟩ := ih [] 0
          exact ⟨gs, by rw [hgs]; rfl⟩
        · exact ih _ _

lemma textOf_split (memory : List UInt8) : ∃ rest, memory = textOf memory ++ rest ∧
    (0 ∉ memory ∧ rest = [] ∨ 0 ∈ memory ∧ ∃ r, rest = 0 :: r) := by
  induction memory with
  | nil => exact ⟨[], rfl, .inl ⟨List.not_mem_nil, rfl⟩⟩
  | cons c memory ih =>
    by_cases h0 : c = 0
    · exact ⟨c :: memory, by simp [textOf, CString.ofString, h0], .inr ⟨by simp [h0], memory, by rw [h0]⟩⟩
    · obtain ⟨rest, hsplit, hrest⟩ := ih
      have htext : textOf (c :: memory) = c :: textOf memory := by simp [textOf, CString.ofString, h0]
      refine ⟨rest, by rw [htext, List.cons_append, ← hsplit], ?_⟩
      simpa [Ne.symm h0] using hrest

/-- Parsing a memory: what stands in front of the first NUL is assigned, and without a NUL the scan has to stop at a bad
port. -/
lemma parse_memory (before memory : List UInt8) (length : ℕ) (info : DBAddrInfo) :
    parseFromConnString ⟨before ++ memory, before.length, length⟩ info =
      if (assignAll info (segmentsOf (textOf memory))).1 = true ∧ 0 ∉ memory then .error .outOfRange
      else .ok (assignAll info (segmentsOf (textOf memory))) := by
  obtain ⟨rest, hsplit, hrest⟩ := textOf_split memory
  have hnul : 0 ∉ textOf memory := (CString.ofString memory).nul_free
  have hparse := fun hrest => @parse_segments _ rest hrest hnul before length info
  rw [← hsplit] at hparse
  rcases hrest with ⟨hmem, rfl⟩ | ⟨hmem, r, rfl⟩
  · rw [hparse (.inl rfl)]
    simp [hmem]
  · rw [hparse (.inr ⟨r, rfl⟩)]
    simp [hmem]

/-- With a NUL in the view, what is behind it does not matter. -/
lemma parse_nul {view : List UInt8} (hnul : 0 ∈ view) (before after : List UInt8) (length : ℕ) (info : DBAddrInfo) :
    parseFromConnString ⟨before ++ (view ++ after), before.length, length⟩ info =
      .ok (assignAll info (segmentsOf (textOf view))) := by
  have htext : textOf (view ++ after) = textOf view := CString.ofString_append_of_mem hnul after
  rw [parse_memory, htext, if_neg (by simp [hnul])]

/-- A scan that stops at a bad port does so whatever is behind the view. -/
lemma parse_stops {view : List UInt8} (hnul : 0 ∉ view) (hstop : (assignAll info (segmentsOf (textOf view))).1 = false)
    (before after : List UInt8) (length : ℕ) :
    parseFromConnString ⟨before ++ (view ++ after), before.length, length⟩ info =
      .ok (assignAll info (segmentsOf (textOf view))) := by
  have hview : textOf view = view := CString.ofString_bytes hnul
  have htext : textOf (view ++ after) = view ++ textOf after := CString.ofString_append_of_not_mem hnul after
  obtain ⟨gs, hgs⟩ := segmentsFrom_append [] 0 view (textOf after)
  have hsame : assignAll info (segmentsOf (textOf (view ++ after))) = assignAll info (segmentsOf (textOf view)) := by
    rw [hview] at hstop ⊢
    rw [htext, segmentsOf, hgs, Segment.assignAll_append, ← segmentsOf, hstop, if_neg Bool.false_ne_true]
  rw [parse_memory, hsame, if_neg (by simp [hstop])]

end Read

/-! ### What is assigned -/

section Assign

variable {info : DBAddrInfo} {gs gs' : List Segment} {g : Segment}

lemma segmentsFrom_colon {cur : List UInt8} {colon : ℕ} (hcolon : colon = 0 ∨ colon < cur.length) (text : List UInt8) :
    ∀ g ∈ segmentsFrom cur colon text, g.colon = 0 ∨ g.colon < g.bytes.length := by
  induction text generalizing cur colon with
  | nil => simp [segmentsFrom]
  | cons c text ih =>
    rw [segmentsFrom]
    split
    · exact ih (.inr (by simp))
    · split
      · exact List.forall_mem_cons.2 ⟨hcolon, ih (.inl rfl)⟩
      · split
        · exact List.forall_mem_cons.2 ⟨hcolon, ih (.inl rfl)⟩
        · exact ih (hcolon.imp_right fun h => by simp; omega)

@[simp] lemma users_cons_true {bytes : List UInt8} {colon : ℕ} :
    users (⟨true, bytes, colon⟩ :: gs) = Segment.name ⟨true, bytes, colon⟩ :: users gs := rfl

@[simp] lemma users_cons_false {bytes : List UInt8} {colon : ℕ} : users (⟨false, bytes, colon⟩ :: gs) = users gs := rfl

@[simp] lemma passwds_cons_true {bytes : List UInt8} {colon : ℕ} : passwds (⟨true, bytes, colon⟩ :: gs) =
    (Segment.value ⟨true, bytes, colon⟩).toList ++ passwds gs := by
  rw [passwds, List.filter_cons_of_pos rfl, List.filterMap_cons]
  cases Segment.value ⟨true, bytes, colon⟩ <;> rfl

@[simp] lemma passwds_cons_false {bytes : List UInt8} {colon : ℕ} : passwds (⟨false, bytes, colon⟩ :: gs) = passwds gs :=
  rfl

@[simp] lemma names_cons_true {bytes : List UInt8} {colon : ℕ} : names (⟨true, bytes, colon⟩ :: gs) = names gs := rfl

@[simp] lemma names_cons_false {bytes : List UInt8} {colon : ℕ} :
    names (⟨false, bytes, colon⟩ :: gs) = bytes :: names gs := rfl

@[simp] lemma getLast?_toList_getD {α : Type} (o : Option α) (d : α) : o.toList.getLast?.getD d = o.getD d := by
  cases o <;> rfl

/-- The last user and the last password of some segments. -/
def withUsers (info : DBAddrInfo) (gs : List Segment) : DBAddrInfo :=
  { info with user := (users gs).getLast?.getD info.user, passwd := (passwds gs).getLast?.getD info.passwd }

/-- With a host, the last name of the database is taken. -/
lemma assignAll_host (hhost : info.host ≠ []) (gs : List Segment) : assignAll info gs =
    (true, { withUsers info gs with dbName := (names gs).getLast?.getD info.dbName }) := by
  induction gs generalizing info with
  | nil => rfl
  | cons g gs ih =>
    obtain ⟨_ | _, bytes, colon⟩ := g
    · rw [assignAll, assign, if_neg Bool.false_ne_true, if_neg hhost, if_pos rfl, ih]
      · simp [withUsers, List.getLast?_cons]
      · exact hhost
    · rw [assignAll, assign, if_pos rfl, if_pos rfl, ih]
      · simp [withUsers, List.getLast?_cons]
      · exact hhost

lemma assignAll_noHost (hhost : info.host = []) (hnone : ∀ g ∈ gs, g.isHost = false)
    (hcolon : ∀ g ∈ gs, g.colon = 0 ∨ g.colon < g.bytes.length) : assignAll info gs = (true, withUsers info gs) := by
  induction gs generalizing info with
  | nil => rfl
  | cons g gs ih =>
    obtain ⟨hg, hnone'⟩ := List.forall_mem_cons.1 hnone
    obtain ⟨hgcolon, hcolon'⟩ := List.forall_mem_cons.1 hcolon
    obtain ⟨_ | _, bytes, colon⟩ := g
    · have hbytes : bytes = [] := by simpa [isHost] using hg
      subst hbytes
      obtain rfl : colon = 0 := by simpa using hgcolon
      have hsame : assign info ⟨false, [], 0⟩ = (true, info) := by
        rw [assign, if_neg Bool.false_ne_true, if_pos hhost]
        exact congrArg (Prod.mk true) (by rw [← hhost]; rfl)
      rw [assignAll, hsame, if_pos rfl, ih hhost hnone' hcolon']
      rfl
    · rw [assignAll, assign, if_pos rfl, if_pos rfl, ih _ hnone' hcolon']
      · simp [withUsers, List.getLast?_cons]
      · exact hhost

lemma stringToInt_output (input : List UInt8) (output : ℤ) : stringToInt input output = stringToInt input 0 := by
  rw [stringToInt, stringToInt, NumericLimits.invoke, NumericLimits.invoke]
  split <;> rfl

lemma assign_isHost (hhost : info.host = []) (hg : g.isHost = true) :
    assign info g = (!g.badPort, { info with host := g.name, port := g.port.getD info.port }) := by
  have huser : g.isUser = false := by
    simp only [isHost, Bool.and_eq_true, Bool.not_eq_true'] at hg
    exact hg.1
  rw [assign, huser, if_neg Bool.false_ne_true, if_pos hhost, badPort, Segment.port]
  cases g.value with
  | none => rfl
  | some v =>
    dsimp only
    rw [stringToInt_output]
    simp

lemma name_ne_nil (hg : g.isHost = true) (hcolon : g.colon = 0 ∨ g.colon < g.bytes.length) : g.name ≠ [] := by
  have hbytes : g.bytes ≠ [] := by
    simp only [isHost, Bool.and_eq_true, Bool.not_eq_true', List.isEmpty_eq_false_iff] at hg
    exact hg.2
  rw [Segment.name]
  split
  · exact hbytes
  · rename_i h0
    have hlen := List.length_take_of_le (hcolon.resolve_left h0).le
    intro hnil
    rw [hnil] at hlen
    exact h0 hlen.symm

lemma users_append_host {pre post : List Segment} (hg : g.isHost = true) :
    users (pre ++ g :: post) = users pre ++ users post ∧ passwds (pre ++ g :: post) = passwds pre ++ passwds post ∧
      names (pre ++ g :: post) = names pre ++ g.bytes :: names post := by
  obtain ⟨_ | _, bytes, colon⟩ := g
  · simp [users, passwds, names]
  · cases hg

variable {pre post : List Segment}

lemma assignAll_upToHost (hhost : info.host = []) (hpre : ∀ g ∈ pre, g.isHost = false)
    (hcolon : ∀ g ∈ pre, g.colon = 0 ∨ g.colon < g.bytes.length) (hg : g.isHost = true) :
    assignAll info (pre ++ g :: post) =
      if g.badPort then (false, { withUsers info pre with host := g.name, port := g.port.getD info.port })
      else assignAll { withUsers info pre with host := g.name, port := g.port.getD info.port } post := by
  have hwith : (withUsers info pre).host = [] := hhost
  rw [Segment.assignAll_append, assignAll_noHost hhost hpre hcolon, if_pos rfl, assignAll, assign_isHost hwith hg]
  cases g.badPort <;> rfl

lemma assignAll_badPort (hhost : info.host = []) (hpre : ∀ g ∈ pre, g.isHost = false)
    (hcolon : ∀ g ∈ pre, g.colon = 0 ∨ g.colon < g.bytes.length) (hg : g.isHost = true) (hbad : g.badPort = true) :
    assignAll info (pre ++ g :: post) =
      (false, { withUsers info pre with host := g.name, port := g.port.getD info.port }) := by
  rw [assignAll_upToHost hhost hpre hcolon hg, if_pos hbad]

lemma assignAll_goodPort (hhost : info.host = []) (hpre : ∀ g ∈ pre, g.isHost = false)
    (hcolon : ∀ g ∈ pre, g.colon = 0 ∨ g.colon < g.bytes.length) (hg : g.isHost = true)
    (hgcolon : g.colon = 0 ∨ g.colon < g.bytes.length) (hgood : g.badPort = false) :
    assignAll info (pre ++ g :: post) = (true, { withUsers info (pre ++ g :: post) with
      host := g.name, port := g.port.getD info.port, dbName := (names post).getLast?.getD info.dbName }) := by
  obtain ⟨husers, hpasswds, -⟩ := @users_append_host g pre post hg
  rw [assignAll_upToHost hhost hpre hcolon hg, hgood, if_neg Bool.false_ne_true, assignAll_host]
  · simp [withUsers, husers, hpasswds, List.getLast?_append]
  · exact name_ne_nil hg hgcolon

end Assign

/-! ### When the call depends on the view alone -/

section View

variable {view : List UInt8} {prior : DBAddrInfo} {pre post gs : List Segment} {g : Segment}

lemma assignAll_fst (hhost : prior.host = []) (hpre : ∀ g ∈ pre, g.isHost = false)
    (hcolon : ∀ g ∈ pre, g.colon = 0 ∨ g.colon < g.bytes.length) (hg : g.isHost = true)
    (hgcolon : g.colon = 0 ∨ g.colon < g.bytes.length) :
    (assignAll prior (pre ++ g :: post)).1 = !g.badPort := by
  cases hbad : g.badPort with
  | true => rw [assignAll_badPort hhost hpre hcolon hg hbad]; rfl
  | false => rw [assignAll_goodPort hhost hpre hcolon hg hgcolon hbad]; rfl

lemma segments_cases (gs : List Segment) :
    (gs.dropWhile (fun g => !g.isHost) = [] ∧ ∀ g ∈ gs, g.isHost = false) ∨
      ∃ pre g post, gs = pre ++ g :: post ∧ gs.takeWhile (fun g => !g.isHost) = pre ∧
        gs.dropWhile (fun g => !g.isHost) = g :: post ∧ (∀ g ∈ pre, g.isHost = false) ∧ g.isHost = true := by
  cases hdrop : gs.dropWhile fun g => !g.isHost with
  | nil => exact .inl ⟨rfl, fun g hg => by simpa using List.dropWhile_eq_nil_iff.1 hdrop g hg⟩
  | cons g post =>
    have hsplit := List.takeWhile_append_dropWhile (p := fun g : Segment => !g.isHost) (l := gs)
    have hhead := List.head_dropWhile_not (fun g : Segment => !g.isHost) (l := gs) (by simp [hdrop])
    simp only [hdrop, List.head_cons, Bool.not_eq_false'] at hhead
    rw [hdrop] at hsplit
    exact .inr ⟨_, g, post, hsplit.symm, rfl, rfl, fun g hg => by simpa using List.mem_takeWhile_imp hg, hhead⟩

/-- When the scan stops, it does so for a fresh object too. -/
lemma assignAll_stops (hcolon : ∀ g ∈ gs, g.colon = 0 ∨ g.colon < g.bytes.length)
    (hstop : (assignAll prior gs).1 = false) : (assignAll {} gs).1 = false := by
  have hhost : prior.host = [] := by
    by_contra hhost
    rw [assignAll_host hhost] at hstop
    cases hstop
  obtain ⟨-, hnone⟩ | ⟨pre, g, post, rfl, -, -, hpre, hg⟩ := segments_cases gs
  · rw [assignAll_noHost hhost hnone hcolon] at hstop
    cases hstop
  · obtain ⟨hprecolon, hgcolon, -⟩ := List.forall_mem_append.1 hcolon |>.imp_right List.forall_mem_cons.1
    rw [assignAll_fst hhost hpre hprecolon hg hgcolon] at hstop
    rw [assignAll_fst rfl hpre hprecolon hg hgcolon, hstop]

lemma segmentsOf_colon (text : List UInt8) : ∀ g ∈ segmentsOf text, g.colon = 0 ∨ g.colon < g.bytes.length :=
  segmentsFrom_colon (.inl rfl) text

/-- The call depends on the view alone when it does not leave it, and both objects end up the same. -/
lemma dependsOnView_iff_same (before view after : List UInt8) (prior : DBAddrInfo) :
    DependsOnView before view after prior ↔
      (0 ∈ view ∨ (assignAll prior (segmentsOf (textOf view))).1 = false) ∧
        (assignAll prior (segmentsOf (textOf view))).2 = (assignAll {} (segmentsOf (textOf view))).2 := by
  have hview := fun length info => parse_memory before view length info
  by_cases hnul : 0 ∈ view
  · have hparse := fun info => parse_nul hnul before after view.length info
    rw [DependsOnView, hparse, hparse]
    constructor
    · rintro ⟨-, r, r', hr, hr', hsame⟩
      cases hr
      cases hr'
      exact ⟨.inl hnul, hsame⟩
    · rintro ⟨-, hsame⟩
      exact ⟨⟨_, (hview _ _).trans (if_neg fun h => h.2 hnul)⟩, _, _, rfl, rfl, hsame⟩
  · have hiff : (∃ r, parseFromConnString ⟨before ++ view, before.length, view.length⟩ prior = .ok r) ↔
        (assignAll prior (segmentsOf (textOf view))).1 = false := by
      rw [hview]
      cases hstop : (assignAll prior (segmentsOf (textOf view))).1 <;> simp [hnul]
    rw [DependsOnView, hiff]
    simp only [hnul, false_or]
    refine and_congr_right fun hstop => ?_
    rw [parse_stops hnul hstop, parse_stops hnul (assignAll_stops (segmentsOf_colon _) hstop)]
    constructor
    · rintro ⟨r, r', hr, hr', hsame⟩
      cases hr
      cases hr'
      exact hsame
    · exact fun hsame => ⟨_, _, rfl, rfl, hsame⟩

lemma fresh_host : ({} : DBAddrInfo).host = [] := rfl

lemma getD_iff {α : Type} (o : Option α) (a d : α) : o.getD a = o.getD d ↔ (o = none → a = d) := by
  cases o <;> simp

/-- Two objects without a host that are assigned the same end up the same when what is not set has its default. -/
lemma keepsDefaults_iff (prior : DBAddrInfo) (gs : List Segment) (host : List UInt8) (port : Option ℤ)
    (names : List (List UInt8)) :
    { withUsers prior gs with host, port := port.getD prior.port, dbName := names.getLast?.getD prior.dbName } =
      { withUsers {} gs with host, port := port.getD 0, dbName := names.getLast?.getD [] } ↔
        KeepsDefaults prior gs port names := by
  simp only [withUsers, DBAddrInfo.mk.injEq, getD_iff, List.getLast?_eq_none_iff, true_and]
  constructor
  · rintro ⟨hport, huser, hpasswd, hname⟩
    exact ⟨huser, hpasswd, hport, hname⟩
  · rintro ⟨huser, hpasswd, hport, hname⟩
    exact ⟨hport, huser, hpasswd, hname⟩

lemma same_noHost (hnone : ∀ g ∈ gs, g.isHost = false) (hcolon : ∀ g ∈ gs, g.colon = 0 ∨ g.colon < g.bytes.length) :
    ((0 ∈ view ∨ (assignAll prior gs).1 = false) ∧ (assignAll prior gs).2 = (assignAll {} gs).2) ↔
      0 ∈ view ∧ prior.host = [] ∧ KeepsDefaults prior gs none [] := by
  rw [assignAll_noHost fresh_host hnone hcolon]
  by_cases hhost : prior.host = []
  · have hprior : withUsers prior gs =
        { withUsers prior gs with host := [], port := (none : Option ℤ).getD prior.port,
                                  dbName := ([] : List (List UInt8)).getLast?.getD prior.dbName } := by
      rw [← hhost]
      rfl
    rw [assignAll_noHost hhost hnone hcolon, ← keepsDefaults_iff prior gs [] none [], ← hprior]
    simp [hhost, withUsers]
  · rw [assignAll_host hhost]
    simp [hhost, withUsers]

lemma same_host (hpre : ∀ g ∈ pre, g.isHost = false) (hg : g.isHost = true)
    (hcolon : ∀ x ∈ pre ++ g :: post, x.colon = 0 ∨ x.colon < x.bytes.length) :
    ((0 ∈ view ∨ (assignAll prior (pre ++ g :: post)).1 = false) ∧
      (assignAll prior (pre ++ g :: post)).2 = (assignAll {} (pre ++ g :: post)).2) ↔
      ReusableHost view prior pre g post := by
  obtain ⟨hprecolon, hgcolon, -⟩ := List.forall_mem_append.1 hcolon |>.imp_right List.forall_mem_cons.1
  obtain ⟨husers, hpasswds, hnames⟩ := @users_append_host g pre post hg
  rw [ReusableHost]
  cases hbad : g.badPort with
  | true =>
    rw [if_pos rfl, assignAll_badPort fresh_host hpre hprecolon hg hbad]
    by_cases hhost : prior.host = []
    · rw [if_pos hhost, assignAll_badPort hhost hpre hprecolon hg hbad, ← keepsDefaults_iff prior pre g.name]
      simp [withUsers]
    · obtain ⟨port, hport⟩ : ∃ port, g.port = some port := by
        rw [badPort] at hbad
        rw [Segment.port]
        cases hvalue : g.value with
        | none => simp [hvalue] at hbad
        | some v => exact ⟨_, rfl⟩
      have hlast : (names (pre ++ g :: post)).getLast? = some ((names post).getLast?.getD g.bytes) := by
        rw [hnames, List.getLast?_append, List.getLast?_cons]
        rfl
      rw [if_neg hhost, assignAll_host hhost]
      simp only [withUsers, DBAddrInfo.mk.injEq, hport, hlast, Option.getD_some, Option.some.injEq, Bool.true_eq_false,
        or_false]
      constructor
      · rintro ⟨hnul, hh, hp, hu, hpw, hn⟩
        exact ⟨hnul, hh, hp.symm, hn, hu, hpw⟩
      · rintro ⟨hnul, hh, hp, hn, hu, hpw⟩
        exact ⟨hnul, hh, hp.symm, hu, hpw, hn⟩
  | false =>
    rw [if_neg Bool.false_ne_true, assignAll_goodPort fresh_host hpre hprecolon hg hgcolon hbad]
    by_cases hhost : prior.host = []
    · rw [if_pos hhost, assignAll_goodPort hhost hpre hprecolon hg hgcolon hbad, ← keepsDefaults_iff prior _ g.name]
      simp
    · have hbytes : g.bytes ≠ [] := by
        simp only [isHost, Bool.and_eq_true, Bool.not_eq_true', List.isEmpty_eq_false_iff] at hg
        exact hg.2
      have hname : (names (pre ++ g :: post)).getLast?.getD prior.dbName = (names post).getLast?.getD [] ↔
          names post ≠ [] := by
        rw [hnames, List.getLast?_append, List.getLast?_cons]
        cases names post with
        | nil => simp [hbytes]
        | cons b l => simp [List.getLast?_cons]
      rw [if_neg hhost, assignAll_host hhost]
      simp only [withUsers, DBAddrInfo.mk.injEq, hname, getD_iff, List.getLast?_eq_none_iff, Bool.true_eq_false, or_false]
      constructor
      · rintro ⟨hnul, hh, hp, hu, hpw, hn⟩
        exact ⟨hnul, hh, hp, hn, hu, hpw⟩
      · rintro ⟨hnul, hh, hp, hn, hu, hpw⟩
        exact ⟨hnul, hh, hp, hu, hpw, hn⟩

/-- **The call depends on the viewed bytes alone if and only if the object is reusable for them**, whatever is before
and behind the view. -/
theorem depends_on_view_iff (before view after : List UInt8) (prior : DBAddrInfo) :
    DependsOnView before view after prior ↔ Reusable view prior := by
  rw [dependsOnView_iff_same, Reusable]
  obtain ⟨hdrop, hnone⟩ | ⟨pre, g, post, hsplit, htake, hdrop, hpre, hg⟩ := segments_cases (segmentsOf (textOf view))
  · rw [hdrop]
    exact same_noHost hnone (segmentsOf_colon _)
  · have hcolon := segmentsOf_colon (textOf view)
    rw [hdrop, htake]
    rw [hsplit] at hcolon ⊢
    exact same_host hpre hg hcolon

/-- A second string `b/` is parsed into an object with the host `a`: the host stays. -/
theorem depends_on_view_second : ¬ ∀ before view after prior, DependsOnView before view after prior := by
  intro hall
  obtain ⟨-, r, r', hr, hr', hsame⟩ := hall [] [0x62, 0x2F, 0] [] { host := [0x61] }
  have hparse : parseFromConnString ⟨[0x62, 0x2F, 0], 0, 3⟩ { host := [0x61] } =
      .ok (true, { host := [0x61], dbName := [0x62] }) := rfl
  have hfresh : parseFromConnString ⟨[0x62, 0x2F, 0], 0, 3⟩ {} = .ok (true, { host := [0x62] }) := rfl
  obtain rfl := Except.ok.inj (hr.symm.trans hparse)
  obtain rfl := Except.ok.inj (hr'.symm.trans hfresh)
  revert hsame
  decide

end View

end Zutils.Config
