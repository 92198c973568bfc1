import ShieldApi.Events.Channels

/-!
# Whose listeners hear of a row

A row of a client should be news at that client and nowhere else. The channel of an event is not
chosen from the row, though, but from the grant of whoever wrote it. Under row-level security the
two are the same client. **A system administrator who bypasses it writes rows of all clients, and
every one of them is announced at the administrator's own** (`staysInTenant_iff`): listeners there
get the id of a row that is none of theirs, and the listeners of the row's client hear nothing.
-/

set_option autoImplicit false

namespace ShieldApi

open Effect

/-! ## 1. Writing a row -/

/-- A write of one row, and what the query gives back of it. -/
structure RowWrite where
  model : String
  operation : PrismaOperation
  /-- The row the query leaves behind or takes away. Some models have rows of no client. -/
  id : String
  clientId : Option String
  selectsId : Bool := true
  deriving DecidableEq, Repr

def RowWrite.result (x : RowWrite) : QueryResult :=
  let id := if x.selectsId then some x.id else none
  match x.operation with
  | .create | .update | .upsert | .delete => .row id
  | .createManyAndReturn | .updateManyAndReturn => .rows [id]
  | .createMany | .updateMany | .deleteMany => .count 1
  | _ => .null

/-- The policies of a client's rows. Those of some models ask for more, for the site of the row or
    its inspector (`rest`). -/
def Settings.mayWrite (s : Settings) (rest : Settings → Bool) (clientId : Option String) : Bool :=
  s.shouldBypassRls || (clientId.any s.validateClient && rest s)

/-- A write through `PrismaService.build`, with what it publishes. -/
def PrismaService.writeRow {σ : Type} (cls : Cls) (env : Env) (options : PrimaryExtensionOptions)
    (rest : Settings → Bool) (x : RowWrite) : Effect σ ApiError (Option RedisMessage) := do
  let rls ← prismaBuild cls env options
  raiseIf (!rls.mayWrite rest x.clientId) .recordNotFound
  pure (cls.accessGrant.bind fun accessGrant => emitModelEvent
    { accessGrant, model := x.model, operation := x.operation, result := x.result })

/-! ## 2. The law -/

/-- A stream that `listenDbEvents` made for a token of `clientId`. -/
def ListensAt (clientId : String) (options : ListenDbEventsDto)
    (stream : List RedisMessage → SseStream) : Prop :=
  IsClientId clientId ∧ ∃ codec env w w₁ w₂ accessGrant,
    (EventsService.validateToken codec env options.token).run w = (.ok accessGrant, w₁) ∧
      EventsService.clientIdOf accessGrant = clientId ∧
        (EventsService.listenDbEvents codec env options).run w = (.ok stream, w₂)

/-- The options let an event of this model, operation and id through. -/
def ListenDbEventsDto.LetsThrough (options : ListenDbEventsDto) (model : String)
    (operation : EventOperation) (id : String) : Prop :=
  (∃ m ∈ options.models, model = m.text) ∧ (∀ ops, options.operations = some ops → operation ∈ ops) ∧
    ∀ ids, options.ids = some ids → id ∈ ids

/-- What is published of a write stays with the client of the row. -/
structure StaysInTenant (x : RowWrite) (published : Option RedisMessage) : Prop where
  /-- Its id is heard at no other client. -/
  noneElse : ∀ {clientId options stream}, ListensAt clientId options stream →
    ∀ payload ∈ (stream published.toList).payloads, payload.field "id" = some x.id →
      x.clientId = some clientId
  /-- And by whoever asks for it at the row's own. -/
  allOwn : ∀ {clientId options stream operation}, ListensAt clientId options stream →
    x.clientId = some clientId → PrismaService.cleanedOperation x.operation = some operation →
      x.result.id? = some x.id → options.LetsThrough x.model operation x.id →
        ∃ payload ∈ (stream published.toList).payloads, payload.field "id" = some x.id

/-- The query announces the id of the row: not so an `upsert`, a query for many rows or one that
    does not select the id. -/
def RowWrite.Announces (x : RowWrite) : Prop :=
  (PrismaService.cleanedOperation x.operation).isSome = true ∧ x.result.id? = some x.id

instance (x : RowWrite) : Decidable x.Announces := inferInstanceAs (Decidable (_ ∧ _))

/-- Somebody can ask for events of the model. -/
def Listenable (model : String) : Prop := ∃ m : SupportedModel, model = m.text

/-! ## 3. Listeners -/

/-- What a listener hears of one query. -/
theorem ListensAt.stream_eq {clientId : String} {options : ListenDbEventsDto}
    {stream : List RedisMessage → SseStream} (h : ListensAt clientId options stream)
    {qs : List ModelQuery} (hqs : ∀ q ∈ qs, IsClientId q.accessGrant.clientId) :
    stream (qs.filterMap PrismaService.emitModelEvent) =
      { payloads := ((qs.filterMap ModelQuery.event?).filter
          (·.wanted options clientId)).map ModelEvent.payload
        failed := false } := by
  obtain ⟨hclient, codec, env, w, w₁, w₂, accessGrant, hvalid, rfl, hlisten⟩ := h
  rw [EventsService.listenDbEvents_of_valid hvalid] at hlisten
  obtain rfl := Except.ok.inj (Prod.mk.inj hlisten).1
  exact EventsService.foldl_received options hclient hqs

/-- There is a listener at every client. -/
theorem listensAt_exists {clientId : String} (hclient : IsClientId clientId)
    (models : List SupportedModel) :
    ∃ token stream, ListensAt clientId { token, models } stream := by
  let g : AccessGrant := { streamGrant with clientId }
  obtain ⟨token, w₁, w₂, -, hvalid⟩ := streamToken_valid g
  let options : ListenDbEventsDto := { token, models }
  have hvalid' : (EventsService.validateToken (streamCodecOf g) streamEnv options.token).run w₁ =
      (.ok g.data, w₂) := hvalid
  exact ⟨token, _, hclient, _, _, _, _, _, _, hvalid', EventsService.clientIdOf_data g,
    EventsService.listenDbEvents_of_valid hvalid'⟩

/-! ## 4. Where the law holds -/

variable {x : RowWrite}

/-- The query of a row's write by somebody with the grant `g`. -/
def RowWrite.query (x : RowWrite) (g : AccessGrant) : ModelQuery :=
  { accessGrant := g, model := x.model, operation := x.operation, result := x.result }

/-- What is published of a write. -/
def RowWrite.published (x : RowWrite) (grant : Option AccessGrant) : Option RedisMessage :=
  grant.bind fun g => PrismaService.emitModelEvent (x.query g)

theorem RowWrite.published_toList (x : RowWrite) (grant : Option AccessGrant) :
    (x.published grant).toList =
      (grant.toList.map x.query).filterMap PrismaService.emitModelEvent := by
  cases grant with
  | none => rfl
  | some g =>
    unfold published
    cases hemit : PrismaService.emitModelEvent (x.query g) with
    | none => simp [hemit]
    | some m => simp [hemit]

/-- What a listener hears of a write: the event, if the writer has a grant at the listener's
    client and the options let it through. -/
theorem ListensAt.mem_payloads {grant : Option AccessGrant}
    (hgrant : ∀ g, grant = some g → IsClientId g.clientId) {clientId : String}
    {options : ListenDbEventsDto} {stream : List RedisMessage → SseStream}
    (h : ListensAt clientId options stream) {payload : EventPayload} :
    payload ∈ (stream (x.published grant).toList).payloads ↔
      ∃ g e, grant = some g ∧ (x.query g).event? = some e ∧
        e.wanted options clientId = true ∧ e.payload = payload := by
  have hqs : ∀ q ∈ grant.toList.map x.query, IsClientId q.accessGrant.clientId := by
    intro q hq
    obtain ⟨g, hg, rfl⟩ := List.mem_map.mp hq
    exact hgrant g (Option.mem_toList.mp hg)
  rw [x.published_toList, h.stream_eq hqs]
  simp only [List.mem_map, List.mem_filter, List.mem_filterMap, Option.mem_toList]
  constructor
  · intro hmem
    obtain ⟨e, ⟨⟨q, ⟨g, hg, rfl⟩, he⟩, hwanted⟩, hpayload⟩ := hmem
    exact ⟨g, e, hg, he, hwanted, hpayload⟩
  · intro hmem
    obtain ⟨g, e, hg, he, hwanted, hpayload⟩ := hmem
    exact ⟨e, ⟨⟨_, ⟨g, hg, rfl⟩, he⟩, hwanted⟩, hpayload⟩

theorem ModelEvent.payload_id (e : ModelEvent) : e.payload.field "id" = e.id := by
  unfold ModelEvent.payload
  cases e.id <;> rfl

/-- The event of a write that announces its row. -/
theorem RowWrite.Announces.event? (h : x.Announces) (g : AccessGrant) :
    ∃ operation, PrismaService.cleanedOperation x.operation = some operation ∧
      (x.query g).event? = some
        { clientId := g.clientId, model := x.model, operation, id := some x.id } := by
  obtain ⟨operation, hoperation⟩ := Option.isSome_iff_exists.mp h.1
  refine ⟨operation, hoperation, ?_⟩
  unfold ModelQuery.event?
  show (PrismaService.cleanedOperation x.operation).map _ = _
  rw [hoperation]
  show some (ModelEvent.mk g.clientId x.model operation x.result.id?) = _
  rw [h.2]

/-- An event that carries the id was announced. -/
theorem RowWrite.announces_of_event? {g : AccessGrant} {e : ModelEvent}
    (he : (x.query g).event? = some e) (hid : e.id = some x.id) : x.Announces := by
  obtain ⟨operation, hoperation, rfl⟩ := Option.map_eq_some_iff.mp he
  exact ⟨Option.isSome_iff_exists.mpr ⟨operation, hoperation⟩, hid⟩

theorem ModelEvent.wanted_eq_true {e : ModelEvent} {options : ListenDbEventsDto}
    {clientId id : String} (hid : e.id = some id) : e.wanted options clientId = true ↔
      e.clientId = clientId ∧ options.LetsThrough e.model e.operation id := by
  have hids (ids : List String) : (ids.any fun i => decide (e.id = some i)) = true ↔ id ∈ ids := by
    rw [hid, List.any_eq_true]
    constructor
    · intro h
      obtain ⟨i, hi, heq⟩ := h
      rwa [Option.some.inj (of_decide_eq_true heq)]
    · intro h
      exact ⟨id, h, decide_eq_true rfl⟩
  unfold ModelEvent.wanted ListenDbEventsDto.LetsThrough
  simp only [Bool.and_eq_true, decide_eq_true_eq, List.any_eq_true, Option.all_eq_true, hids,
    List.contains_iff_mem, and_assoc]

/-- Whoever asks for the model and nothing more is let through. -/
theorem letsThrough_model {m : SupportedModel} {model : String} (hmodel : model = m.text)
    (token : String) (operation : EventOperation) (id : String) :
    ({ token, models := [m] } : ListenDbEventsDto).LetsThrough model operation id :=
  ⟨⟨m, List.mem_singleton_self m, hmodel⟩, fun _ h => (by cases h), fun _ h => (by cases h)⟩

/-- Where the law holds, the writer is at the client of the row that is announced. -/
theorem StaysInTenant.own {grant : Option AccessGrant}
    (hgrant : ∀ g, grant = some g → IsClientId g.clientId)
    (hrow : ∀ c, x.clientId = some c → IsClientId c)
    (hlaw : StaysInTenant x (x.published grant)) (hannounces : x.Announces)
    (hmodel : Listenable x.model) : x.clientId = grant.map (·.clientId) := by
  obtain ⟨m, hmodel⟩ := hmodel
  cases grant with
  | some g =>
    -- somebody at the writer's client hears it
    obtain ⟨operation, -, he⟩ := hannounces.event? g
    obtain ⟨token, stream, hlistens⟩ := listensAt_exists (hgrant g rfl) [m]
    refine hlaw.noneElse hlistens _ ((hlistens.mem_payloads hgrant).mpr ⟨g, _, rfl, he, ?_, rfl⟩) ?_
    · exact (ModelEvent.wanted_eq_true rfl).mpr ⟨rfl, letsThrough_model hmodel token _ _⟩
    · exact ModelEvent.payload_id _
  | none =>
    -- nobody hears anything
    cases hc : x.clientId with
    | none => rfl
    | some c =>
      obtain ⟨operation, hoperation⟩ := Option.isSome_iff_exists.mp hannounces.1
      obtain ⟨token, stream, hlistens⟩ := listensAt_exists (hrow c hc) [m]
      obtain ⟨payload, hheard, -⟩ := hlaw.allOwn hlistens hc hoperation hannounces.2
        (letsThrough_model hmodel token _ _)
      obtain ⟨g, e, hg, -⟩ := (hlistens.mem_payloads hgrant).mp hheard
      exact absurd hg (by simp)

theorem staysInTenant_of_own {grant : Option AccessGrant}
    (hgrant : ∀ g, grant = some g → IsClientId g.clientId)
    (hown : x.Announces → Listenable x.model → x.clientId = grant.map (·.clientId)) :
    StaysInTenant x (x.published grant) := by
  refine ⟨?_, ?_⟩
  · intro clientId options stream hlistens payload hheard hid
    obtain ⟨g, e, rfl, he, hwanted, rfl⟩ := (hlistens.mem_payloads hgrant).mp hheard
    rw [ModelEvent.payload_id] at hid
    obtain ⟨hclient, ⟨m, -, hmodel⟩, -⟩ := (ModelEvent.wanted_eq_true hid).mp hwanted
    have hannounces := x.announces_of_event? he hid
    obtain ⟨operation, -, he'⟩ := hannounces.event? g
    obtain rfl := Option.some.inj (he'.symm.trans he)
    rw [hown hannounces ⟨m, hmodel⟩, ← hclient]
    rfl
  · intro clientId options stream operation hlistens hc hoperation hid hlets
    have hannounces : x.Announces := ⟨Option.isSome_iff_exists.mpr ⟨operation, hoperation⟩, hid⟩
    obtain ⟨m, -, hmodel⟩ := hlets.1
    have hwriter := hown hannounces ⟨m, hmodel⟩
    obtain ⟨g, rfl, hg⟩ := Option.map_eq_some_iff.mp (hwriter.symm.trans hc)
    obtain ⟨operation', hoperation', he⟩ := hannounces.event? g
    obtain rfl := Option.some.inj (hoperation.symm.trans hoperation')
    refine ⟨_, (hlistens.mem_payloads hgrant).mpr ⟨g, _, rfl, he, ?_, rfl⟩, ModelEvent.payload_id _⟩
    exact (ModelEvent.wanted_eq_true rfl).mpr ⟨hg, hlets⟩

/-- **The id of a row is heard at the row's client and nowhere else exactly if the writer's client
    is the row's**, for every write that announces its row to somebody. -/
theorem RowWrite.stays_iff {grant : Option AccessGrant}
    (hgrant : ∀ g, grant = some g → IsClientId g.clientId)
    (hrow : ∀ c, x.clientId = some c → IsClientId c) :
    StaysInTenant x (x.published grant) ↔
      (x.Announces → Listenable x.model → x.clientId = grant.map (·.clientId)) :=
  ⟨StaysInTenant.own hgrant hrow, staysInTenant_of_own hgrant⟩

/-! ## 5. Through the request client -/

theorem PrismaService.writeRow_eq_ok {σ : Type} {cls : Cls} {env : Env}
    {options : PrimaryExtensionOptions} {rest : Settings → Bool} {w w' : σ}
    {published : Option RedisMessage}
    (h : (writeRow cls env options rest x).run w = (.ok published, w')) :
    published = x.published cls.accessGrant ∧ ∃ rls,
      (buildPrimaryExtension cls env.allowedSiteIdsForSite options).settings = .ok rls ∧
        rls.mayWrite rest x.clientId = true := by
  obtain ⟨rls, w₁, hbuild, h⟩ := bind_eq_ok.mp h
  obtain ⟨_, w₂, hmay, h⟩ := bind_eq_ok.mp h
  refine ⟨(Except.ok.inj (Prod.mk.inj h).1).symm, rls, prismaBuild_eq_ok hbuild, ?_⟩
  have hgoes := (raiseIf_eq_ok.mp hmay).1
  simpa using hgoes

/-- Without the bypass nobody writes a row of another client. -/
theorem PrismaService.writeRow_own {σ : Type} {cls : Cls} {env : Env}
    {options : PrimaryExtensionOptions} {rest : Settings → Bool} {w w' : σ}
    {published : Option RedisMessage} (hctx : options.rlsContext = none)
    (hoff : (buildPrimaryExtension cls env.allowedSiteIdsForSite options).bypassRLS = false)
    (h : (writeRow cls env options rest x).run w = (.ok published, w')) :
    x.clientId = cls.accessGrant.map (·.clientId) := by
  obtain ⟨-, rls, hrls, hmay⟩ := writeRow_eq_ok h
  have hbuild : (prismaBuild cls env options : Effect σ ApiError Settings).run w = (.ok rls, w) := by
    rw [prismaBuild_of_settings hrls]
    rfl
  obtain ⟨g, p, hg, -, -, hbypass, hclient⟩ := prismaBuild_scoped hoff hctx hbuild
  rw [Settings.mayWrite, hbypass, Bool.false_or, Bool.and_eq_true] at hmay
  obtain ⟨c, hc, hvalidate⟩ := (Option.any_eq_true _ _).mp hmay.1
  rw [hclient] at hvalidate
  rw [hc, hg, Option.map_some, of_decide_eq_true hvalidate]

/-- **A request's write stays in its tenant exactly if the row is of the client of the writer's
    grant**, or nobody can be told of it. Client ids are cuids. -/
theorem staysInTenant_iff {σ : Type} {cls : Cls} {env : Env} {options : PrimaryExtensionOptions}
    {rest : Settings → Bool} {x : RowWrite} {w w' : σ} {published : Option RedisMessage}
    (hgrant : ∀ g, cls.accessGrant = some g → IsClientId g.clientId)
    (hrow : ∀ c, x.clientId = some c → IsClientId c)
    (h : (PrismaService.writeRow cls env options rest x).run w = (.ok published, w')) :
    StaysInTenant x published ↔
      (x.Announces → Listenable x.model → x.clientId = cls.accessGrant.map (·.clientId)) := by
  obtain ⟨rfl, -⟩ := PrismaService.writeRow_eq_ok h
  exact RowWrite.stays_iff hgrant hrow

/-! ## 6. A pump of `bolt` -/

def streamPerson : Person where
  id := "p1"
  firstName := "Ada"
  lastName := "Okoye"
  email := "ada@acme.test"

def memberCls : Cls := { accessGrant := some streamGrant, person := some streamPerson }

/-- A system administrator who signed in at `acme` and asked for the system's view. -/
def administratorCls : Cls where
  accessGrant := some { streamGrant with scope := .system }
  person := some streamPerson
  accessIntent? := some .system

def pumpRepaired (clientId : String) : RowWrite where
  model := "Asset"
  operation := .update
  id := "pump"
  clientId := some clientId

theorem streamGrant_isClientId : ∀ c, some c = some streamGrant.clientId → IsClientId c := by
  intro c hc
  rw [Option.some.inj hc]
  exact acme_isClientId

theorem memberWrite_stays : ∃ published,
    (PrismaService.writeRow memberCls {} {} (fun _ => true) (pumpRepaired "acme")).run () =
        (.ok published, ()) ∧ StaysInTenant (pumpRepaired "acme") published := by
  have hrun : (PrismaService.writeRow memberCls {} {} (fun _ => true) (pumpRepaired "acme")).run () =
      (.ok ((pumpRepaired "acme").published (some streamGrant)), ()) := by rfl
  refine ⟨_, hrun, (staysInTenant_iff ?_ ?_ hrun).mpr fun _ _ => rfl⟩
  · exact fun g hg => streamGrant_isClientId _ (congrArg (Option.map AccessGrant.clientId) hg.symm)
  · exact fun c hc => streamGrant_isClientId c hc.symm

/-- The administrator's repair of a pump of `bolt` is news at `acme`, and at `bolt` it is not. -/
theorem administratorWrite_leaves : ∃ published,
    (PrismaService.writeRow administratorCls {} {} (fun _ => true) (pumpRepaired "bolt")).run () =
        (.ok published, ()) ∧ ¬ StaysInTenant (pumpRepaired "bolt") published ∧
      (∃ options stream, ListensAt "acme" options stream ∧
        ∃ payload ∈ (stream published.toList).payloads, payload.field "id" = some "pump") ∧
      ∀ options stream, ListensAt "bolt" options stream →
        (stream published.toList).payloads = [] := by
  let g : AccessGrant := { streamGrant with scope := .system }
  have hrun : (PrismaService.writeRow administratorCls {} {} (fun _ => true)
      (pumpRepaired "bolt")).run () = (.ok ((pumpRepaired "bolt").published (some g)), ()) := by rfl
  have hgrant : ∀ g', some g = some g' → IsClientId g'.clientId := fun g' hg =>
    streamGrant_isClientId _ (congrArg (Option.map AccessGrant.clientId) hg.symm)
  have hevent : ((pumpRepaired "bolt").query g).event? = some ⟨"acme", "Asset", .update, some "pump"⟩ :=
    rfl
  obtain ⟨token, stream, hlistens⟩ := listensAt_exists acme_isClientId [.asset]
  have hheard : ∃ payload ∈ (stream ((pumpRepaired "bolt").published (some g)).toList).payloads,
      payload.field "id" = some "pump" := by
    refine ⟨_, (hlistens.mem_payloads hgrant).mpr ⟨g, _, rfl, hevent, ?_, rfl⟩,
      ModelEvent.payload_id _⟩
    rfl
  refine ⟨_, hrun, ?_, ⟨_, stream, hlistens, hheard⟩, ?_⟩
  · intro hlaw
    obtain ⟨payload, hmem, hid⟩ := hheard
    exact absurd (hlaw.noneElse hlistens payload hmem hid) (by decide)
  · intro options stream hlistens
    apply List.eq_nil_iff_forall_not_mem.mpr
    intro payload hmem
    obtain ⟨g', e, hg, he, hwanted, -⟩ := (hlistens.mem_payloads hgrant).mp hmem
    obtain rfl := Option.some.inj hg
    obtain rfl := Option.some.inj (hevent.symm.trans he)
    have hclient := ((ModelEvent.wanted_eq_true rfl).mp hwanted).1
    exact absurd hclient (by decide)

end ShieldApi
