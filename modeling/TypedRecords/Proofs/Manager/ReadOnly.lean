/-
What a manager that only reads does.

A client calls a manager again and again, and what it calls next may hang on every answer it got.
Each call reads or writes.  A manager that only reads answers a write with the refusal of its
operation and does nothing else, and it reads just as it would if it wrote too.  So a run of any
client is the run that a writing manager makes of the client's reads alone.  What reads send to a
store is page requests: each basic operation sends nothing else, and sequences, loops and cursors
keep to what their parts send.
-/
import TypedRecords.Manager.Write
import TypedRecords.Proofs.Cursor

namespace TypedRecords

open Query (PageQuery Search)

namespace Manager

variable {σ α β : Type} {m : Manager σ}

/-! ### Calls and clients -/

/-- A call that reads. -/
inductive Read where
  | find (type : TypeName) (search : Search)
  | findUntyped (entity : String) (search : Search)
  | retrieve (type : TypeName) (q : PageQuery)
  | findById (type : TypeName) (id : Identity)
  | findByReference (r : Reference)
  | move (c : Cursor) (direction : Direction)
  | allPages (c : Cursor)
  | cast (type : TypeName) (record : Option Record)
  | castAll (type : TypeName) (entities : List Entity)

/-- What a read is answered with. -/
@[reducible] def Read.Answer : Read → Type
  | find .. => Cursor
  | findUntyped .. => Cursor
  | retrieve .. => Cursor
  | findById .. => Option Entity
  | findByReference _ => Option Entity
  | move .. => Bool × Cursor
  | allPages _ => List Entity
  | cast .. => Except MappingError Entity
  | castAll .. => Except MappingError (List Entity)

/-- Answers a read. -/
def read (m : Manager σ) : (call : Read) → Run σ call.Answer
  | .find type search => m.find type search
  | .findUntyped entity search => m.findUntyped entity search
  | .retrieve type q => m.retrieve type q
  | .findById type id => m.findById type id
  | .findByReference r => m.findByReference r
  | .move c direction => c.move m direction
  | .allPages c => c.allPages m
  | .cast type record => m.cast type record
  | .castAll type entities => m.castAll type entities

/-- A call that writes. -/
inductive Write where
  | insert (type : TypeName) (e : Entity)
  | update (type : TypeName) (e : Entity)
  | insertOrUpdate (type : TypeName) (e : Entity)
  | setState (target : Reference) (state status : Int32)
  | setLifecycle (target : Reference) (state : Lifecycle) (status : Option Int32)
  | setActive (target : Reference) (active : Bool) (status : Option Int32)
  | associate (root child : Reference) (relationship : String)
  | associateRelated (type : TypeName) (e : Entity) (related : Reference) (member : String)

/-- What a write is answered with: whether anything was changed, and the entity afterwards where a
write may change it. -/
@[reducible] def Write.Answer : Write → Type
  | insert .. => Except Error Bool × Entity
  | insertOrUpdate .. => Except Error Bool × Entity
  | _ => Except Error Bool

/-- Answers a write. -/
def write (m : Manager σ) : (call : Write) → Run σ call.Answer
  | .insert type e => m.insert type e
  | .update type e => m.update type e
  | .insertOrUpdate type e => m.insertOrUpdate type e
  | .setState target state status => m.setState target state status
  | .setLifecycle target state status => m.setLifecycle target state status
  | .setActive target active status => m.setActive target active status
  | .associate root child relationship => m.associate root child relationship
  | .associateRelated type e related member => m.associateRelated type e related member

/-- The refusal of a write: the policy violation of its operation, and the entity as it was. -/
def Write.refusal : (call : Write) → call.Answer
  | insert _ e => (.error (.policyViolation "insert"), e)
  | update .. => .error (.policyViolation "update")
  | insertOrUpdate _ e =>
    (.error (.policyViolation (if e.header.id.isNil then "insert" else "update")), e)
  | setState .. => .error (.policyViolation "set_state")
  | setLifecycle .. => .error (.policyViolation "set_state")
  | setActive .. => .error (.policyViolation "set_state")
  | associate .. => .error (.policyViolation "associate")
  | associateRelated .. => .error (.policyViolation "associate_related")

/-- A client of a manager: it is done, or it makes a call and goes on with the answer. -/
inductive Client (α : Type) where
  | done (a : α)
  | reads (call : Read) (next : call.Answer → Client α)
  | writes (call : Write) (next : call.Answer → Client α)

namespace Client

/-- Runs a client. -/
def run (m : Manager σ) : Client α → Run σ α
  | done a => pure a
  | reads call next => m.read call >>= fun answer => (next answer).run m
  | writes call next => m.write call >>= fun answer => (next answer).run m

/-- A client that makes the reads only, and goes on from each write with its refusal. -/
def readsOnly : Client α → Client α
  | done a => done a
  | reads call next => reads call fun answer => (next answer).readsOnly
  | writes call next => (next call.refusal).readsOnly

end Client

/-- The manager with the same settings, but that it writes. -/
def writable (m : Manager σ) : Manager σ := { m with config.readOnly := false }

/-! ### Writes are refused -/

section

variable (hm : m.config.readOnly = true)

include hm

theorem writing_of_readOnly (operation : String) (run : Run σ α) :
    m.writing operation run = pure (.error (.policyViolation operation)) := by
  unfold writing
  rw [if_pos hm]

/-- **A manager that only reads refuses every write and does nothing else.** -/
theorem write_of_readOnly (call : Write) : m.write call = pure call.refusal := by
  have hinsert : ∀ type e, m.insert type e = pure (.error (.policyViolation "insert"), e) := by
    intro type e
    unfold Manager.insert
    rw [writing_of_readOnly hm]
    rfl
  cases call with
  | insert type e => exact hinsert type e
  | update type e => exact writing_of_readOnly hm ..
  | insertOrUpdate type e =>
      show m.insertOrUpdate type e = pure (_, e)
      unfold insertOrUpdate Manager.update
      by_cases hnil : e.header.id.isNil = true
      · rw [if_pos hnil, if_pos hnil, hinsert]
      · rw [if_neg hnil, if_neg hnil, writing_of_readOnly hm]
        rfl
  | setState target state status => exact writing_of_readOnly hm ..
  | setLifecycle target state status => exact writing_of_readOnly hm ..
  | setActive target active status => exact writing_of_readOnly hm ..
  | associate root child relationship => exact writing_of_readOnly hm ..
  | associateRelated type e related member =>
      show m.associateRelated type e related member = _
      unfold associateRelated
      rw [if_pos hm]
      rfl

end

/-! ### Reads do not look at whether the manager writes -/

theorem readEach_writable (m : Manager σ) (type : TypeName) (records : List Record) :
    m.writable.readEach type records = m.readEach type records := by
  induction records with
  | nil => rfl
  | cons record rest ih =>
      rw [readEach, readEach, ih]
      rfl

theorem fetch_writable (m : Manager σ) (type : TypeName) (q : PageQuery) :
    m.writable.fetch type q = m.fetch type q := by
  unfold fetch
  simp only [readEach_writable]
  rfl

theorem retrieve_writable (m : Manager σ) (type : TypeName) (q : PageQuery) :
    m.writable.retrieve type q = m.retrieve type q := by
  unfold retrieve
  rw [fetch_writable]

theorem castAll_writable (m : Manager σ) (type : TypeName) (entities : List Entity) :
    m.writable.castAll type entities = m.castAll type entities := by
  induction entities with
  | nil => rfl
  | cons e rest ih =>
      rw [castAll, castAll, ih]
      rfl

theorem pagesAfter_writable (m : Manager σ) (type : TypeName) (q : PageQuery) :
    Cursor.pagesAfter m.writable type q = Cursor.pagesAfter m type q := by
  induction q using PageQuery.next_induction with
  | last q hnone => rw [Cursor.pagesAfter_last hnone, Cursor.pagesAfter_last hnone]
  | next q r hsome ih =>
      rw [Cursor.pagesAfter_next hsome, Cursor.pagesAfter_next hsome, fetch_writable, ih]

/-- **Reading does not depend on whether the manager writes.** -/
theorem read_writable (m : Manager σ) (call : Read) : m.writable.read call = m.read call := by
  cases call with
  | find type search =>
      show m.writable.find type search = m.find type search
      unfold find
      simp only [retrieve_writable]
      rfl
  | findUntyped entity search =>
      show m.writable.findUntyped entity search = m.findUntyped entity search
      unfold findUntyped
      simp only [retrieve_writable]
      rfl
  | retrieve type q => exact retrieve_writable m type q
  | findById type id =>
      show m.writable.findById type id = m.findById type id
      unfold findById
      simp only [fetch_writable]
      rfl
  | findByReference r => rfl
  | move c direction =>
      show c.move m.writable direction = c.move m direction
      unfold Cursor.move
      simp only [fetch_writable]
  | allPages c =>
      show c.allPages m.writable = c.allPages m
      unfold Cursor.allPages
      simp only [pagesAfter_writable]
  | cast type record => rfl
  | castAll type entities => exact castAll_writable m type entities

/-! ### Reads send page requests only -/

/-- Run from any session, an operation sends nothing but page requests. -/
def OnlyReads (run : Run σ α) : Prop :=
  ∀ s, ∃ new, (run s).2.requests = s.requests ++ new ∧ ∀ r ∈ new, r.isRead = true

namespace OnlyReads

theorem pure (a : α) : OnlyReads (Pure.pure a : Run σ α) :=
  fun _ => ⟨[], (List.append_nil _).symm, by simp⟩

/-- A sequence of reading operations only reads. -/
theorem bind {first : Run σ α} {rest : α → Run σ β} (hfirst : OnlyReads first)
    (hrest : ∀ a, OnlyReads (rest a)) : OnlyReads (first >>= rest) := by
  intro s
  obtain ⟨new, hnew, hreads⟩ := hfirst s
  obtain ⟨more, hmore, hreads'⟩ := hrest (first s).1 (first s).2
  refine ⟨new ++ more, ?_, ?_⟩
  · show (rest (first s).1 (first s).2).2.requests = s.requests ++ (new ++ more)
    rw [hmore, hnew, List.append_assoc]
  · intro r hr
    rcases List.mem_append.mp hr with hr | hr
    · exact hreads r hr
    · exact hreads' r hr

theorem ask (types : List TypeName) : OnlyReads (Manager.ask types : Run σ Unit) :=
  fun _ => ⟨[], (List.append_nil _).symm, by simp⟩

theorem report (e : Error) : OnlyReads (Manager.report e : Run σ Unit) := by
  intro s
  refine ⟨[], ?_, by simp⟩
  show (s.history ++ [Event.reported e]).filterMap Event.request? = s.requests ++ []
  rw [List.filterMap_append]
  rfl

theorem page (m : Manager σ) (q : PageQuery) : OnlyReads (m.send (.retrieve q)) := by
  intro s
  refine ⟨[.retrieve q], ?_, by simp [Request.isRead]⟩
  show (s.history ++ [Event.sent (.retrieve q)]).filterMap Event.request? = s.requests ++ [_]
  rw [List.filterMap_append]
  rfl

theorem foldlM {f : β → α → Run σ β} (hf : ∀ b a, OnlyReads (f b a)) (xs : List α) :
    ∀ b, OnlyReads (xs.foldlM f b) := by
  induction xs with
  | nil => exact fun b => .pure b
  | cons x rest ih =>
      intro b
      rw [List.foldlM_cons]
      exact (hf b x).bind ih

theorem mapM {f : α → Run σ β} (hf : ∀ a, OnlyReads (f a)) (xs : List α) :
    OnlyReads (xs.mapM f) := by
  induction xs with
  | nil => exact .pure []
  | cons x rest ih =>
      rw [List.mapM_cons]
      exact (hf x).bind fun _ => ih.bind fun _ => .pure _

theorem schema? (m : Manager σ) (type : TypeName) : OnlyReads (m.schema? type) :=
  (ask _).bind fun _ => .pure _

theorem mapped? (m : Manager σ) (type : TypeName) : OnlyReads (m.mapped? type) := by
  refine (schema? m type).bind ?_
  intro found
  cases found with
  | some s => exact .pure _
  | none => exact (report _).bind fun _ => .pure _

theorem ofRecord (m : Manager σ) (type : TypeName) (record : Record) :
    OnlyReads (m.ofRecord type record) :=
  (ask _).bind fun _ => .pure _

theorem readEach (m : Manager σ) (type : TypeName) (records : List Record) :
    OnlyReads (m.readEach type records) := by
  induction records with
  | nil => exact .pure _
  | cons record rest ih =>
      refine (ofRecord m type record).bind ?_
      intro result
      cases result with
      | ok e => exact ih.bind fun _ => .pure _
      | error e => exact (report _).bind fun _ => ih

theorem fetchRecord (m : Manager σ) (q : PageQuery) : OnlyReads (m.fetchRecord q) := by
  refine (page m q).bind ?_
  intro answer
  cases answer with
  | ok page => exact .pure _
  | error e => exact (report _).bind fun _ => .pure _

theorem followUps (m : Manager σ) (type : TypeName) (e : Entity) :
    OnlyReads (m.followUps type e) := by
  unfold Manager.followUps
  split
  · exact .pure _
  · refine (schema? m type).bind ?_
    intro found
    cases found with
    | none => exact .pure _
    | some s =>
        cases e.header.record with
        | none => exact .pure _
        | some record => exact (ask _).bind fun _ => .pure _

theorem followUp (m : Manager σ) (e : Entity) (f : FollowUp) : OnlyReads (m.followUp e f) := by
  refine (fetchRecord m _).bind ?_
  intro found
  cases found with
  | none => exact .pure _
  | some record =>
      refine (ofRecord m _ _).bind ?_
      intro result
      cases result with
      | ok child => exact .pure _
      | error error => exact (report _).bind fun _ => .pure _

theorem resolveEager (m : Manager σ) (type : TypeName) (e : Entity) :
    OnlyReads (m.resolveEager type e) :=
  (followUps m type e).bind fun _ => foldlM (followUp m) _ e

theorem fetch (m : Manager σ) (type : TypeName) (q : PageQuery) : OnlyReads (m.fetch type q) := by
  refine (page m q).bind ?_
  intro answer
  cases answer with
  | error e => exact (report _).bind fun _ => .pure _
  | ok page =>
      exact (readEach m type _).bind fun _ => (mapM (resolveEager m type) _).bind fun _ => .pure _

theorem retrieve (m : Manager σ) (type : TypeName) (q : PageQuery) :
    OnlyReads (m.retrieve type q) :=
  (fetch m type q).bind fun _ => .pure _

theorem typedQuery (m : Manager σ) (type : TypeName) (search : Search) :
    OnlyReads (m.typedQuery type search) := by
  refine (mapped? m type).bind ?_
  intro found
  cases found with
  | none => exact .pure _
  | some s =>
      refine (ask _).bind fun _ => ?_
      cases search.toPageQuery m.catalog s with
      | ok q => exact .pure _
      | error e => exact (report _).bind fun _ => .pure _

theorem untypedQuery (m : Manager σ) (entity : String) (search : Search) :
    OnlyReads (m.untypedQuery entity search) := by
  unfold Manager.untypedQuery
  cases search.toUntypedPageQuery entity with
  | ok q => exact .pure _
  | error e => exact (report _).bind fun _ => .pure _

theorem findById (m : Manager σ) (type : TypeName) (id : Identity) :
    OnlyReads (m.findById type id) := by
  refine (mapped? m type).bind ?_
  intro found
  cases found with
  | none => exact .pure _
  | some s =>
      dsimp only
      cases (identitySearch id).toPageQuery m.catalog s with
      | ok q => exact (fetch m type _).bind fun _ => .pure _
      | error e => exact (report _).bind fun _ => .pure _

theorem cast (m : Manager σ) (type : TypeName) (record : Option Record) :
    OnlyReads (m.cast type record) := by
  have hresolve : ∀ e, OnlyReads (m.resolveEager type e >>= fun e => Pure.pure (.ok e) :
      Run σ (Except MappingError Entity)) :=
    fun e => (resolveEager m type e).bind fun _ => .pure _
  cases record with
  | none => exact hresolve _
  | some r =>
      refine (ofRecord m type r).bind ?_
      intro result
      cases result with
      | ok e => exact hresolve e
      | error e => exact .pure _

theorem castAll (m : Manager σ) (type : TypeName) (entities : List Entity) :
    OnlyReads (m.castAll type entities) := by
  induction entities with
  | nil => exact .pure _
  | cons e rest ih =>
      refine (cast m type _).bind ?_
      intro result
      cases result with
      | error error => exact .pure _
      | ok first =>
          refine ih.bind ?_
          intro others
          cases others with
          | error error => exact .pure _
          | ok others => exact .pure _

theorem pagesAfter (m : Manager σ) (type : TypeName) (q : PageQuery) :
    OnlyReads (Cursor.pagesAfter m type q) := by
  induction q using PageQuery.next_induction with
  | last q hnone =>
      rw [Cursor.pagesAfter_last hnone]
      exact .pure _
  | next q r hsome ih =>
      rw [Cursor.pagesAfter_next hsome]
      refine (fetch m type _).bind ?_
      intro batch
      split
      · exact .pure _
      · exact ih.bind fun _ => .pure _

/-- **A read sends page requests only.** -/
theorem read (m : Manager σ) (call : Read) : OnlyReads (m.read call) := by
  cases call with
  | find type search =>
      refine (typedQuery m type search).bind ?_
      intro found
      cases found with
      | some q => exact retrieve m type q
      | none => exact .pure _
  | findUntyped entity search =>
      refine (untypedQuery m entity search).bind ?_
      intro found
      cases found with
      | some q => exact retrieve m dynamicType q
      | none => exact .pure _
  | retrieve type q => exact retrieve m type q
  | findById type id => exact findById m type id
  | findByReference r => exact (fetchRecord m _).bind fun _ => .pure _
  | move c direction =>
      show OnlyReads (c.move m direction)
      unfold Cursor.move
      cases c.query.bind direction.step? with
      | none => exact .pure _
      | some q => exact (fetch m c.type q).bind fun _ => .pure _
  | allPages c =>
      show OnlyReads (c.allPages m)
      unfold Cursor.allPages
      cases c.query with
      | none => exact .pure _
      | some q => exact (pagesAfter m c.type q).bind fun _ => .pure _
  | cast type record => exact cast m type record
  | castAll type entities => exact castAll m type entities

end OnlyReads

/-! ### Whole runs -/

theorem Client.run_readsOnly (m : Manager σ) (client : Client α) :
    OnlyReads (client.readsOnly.run m) := by
  induction client with
  | done a => exact .pure a
  | reads call next ih => exact (OnlyReads.read m call).bind ih
  | writes call next ih => exact ih _

theorem Client.run_of_readOnly (hm : m.config.readOnly = true) (client : Client α) :
    client.run m = client.readsOnly.run m.writable := by
  induction client with
  | done a => rfl
  | reads call next ih =>
      rw [Client.run, Client.readsOnly, Client.run, read_writable]
      simp only [ih]
  | writes call next ih =>
      rw [Client.run, Client.readsOnly, write_of_readOnly hm, ← ih]
      rfl

/--
**Nothing but page requests reaches the store of a manager that only reads.**

A write is refused: it gives the policy violation of its operation with the entity as it was, and
leaves the whole session, requests and faults included, as it was.  A read is what it is for the
same manager that writes.  So is a whole run, with each write left out and answered by its refusal,
and the requests that it adds to the session are reads.
-/
theorem readOnly_refuses (hm : m.config.readOnly = true) :
    (∀ (call : Write) (s : Session σ), m.write call s = (call.refusal, s)) ∧
    (∀ (call : Read) (s : Session σ), m.read call s = m.writable.read call s) ∧
    (∀ (α : Type) (client : Client α) (s : Session σ),
      client.run m s = client.readsOnly.run m.writable s ∧
      ∃ new, (client.run m s).2.requests = s.requests ++ new ∧
        ∀ r ∈ new, r.isRead = true) := by
  refine ⟨?_, ?_, ?_⟩
  · intro call s
    rw [write_of_readOnly hm]
    rfl
  · intro call s
    rw [read_writable]
  · intro α client s
    rw [Client.run_of_readOnly hm]
    exact ⟨rfl, Client.run_readsOnly m.writable client s⟩

/-! A client that looks at notes and puts one back in between. -/

/-- A manager that only reads notes. -/
def noteReader : Manager Unit := { Cursor.noteKeeper with config := .reading }

/-- Looks at the first page, writes its first note back and looks at the second page. -/
def puttingBack : Client (Except Error Bool × Bool) :=
  .reads (.retrieve "Note" { entity := "note" }) fun c =>
    .writes (.insertOrUpdate "Note" (c.batch.entities.headD {})) fun written =>
      .reads (.move c .next) fun moved => .done (written.1, moved.1)

theorem readOnly_refuses_putting_back :
    noteReader.config.readOnly = true ∧
      (∀ e s, noteReader.write (.insert "Memo" e) s
        = ((.error (.policyViolation "insert"), e), s)) ∧
      puttingBack.run noteReader (.start () 1)
        = puttingBack.readsOnly.run noteReader.writable (.start () 1) ∧
      ∃ new, (puttingBack.run noteReader (.start () 1)).2.requests = new ∧ new.length = 2 ∧
        ∀ r ∈ new, r.isRead = true := by
  obtain ⟨hwrite, -, hruns⟩ := readOnly_refuses (m := noteReader) rfl
  obtain ⟨hrun, new, hnew, hreads⟩ := hruns _ puttingBack (.start () 1)
  have hlength : (puttingBack.run noteReader (.start () 1)).2.requests.length = 2 := rfl
  refine ⟨rfl, fun e s => hwrite (.insert "Memo" e) s, hrun, new, hnew, ?_, hreads⟩
  rw [hnew] at hlength
  exact hlength

end Manager

end TypedRecords
