import ShieldApi.Auth.TokenPurpose
import ShieldApi.Lib.Glob
import ShieldApi.Lib.JsonRecord

/-!
# Database events: what is published, and what a listener hears

`PrismaService.emitModelEvent` and `EventsService.listenDbEvents`. A query of the request client is
published on a channel of the writer's client, its model and its operation. A listener asks Redis
for one pattern of channels, which is wider than what it was asked for as soon as it was asked for
two models or two operations, and drops in memory what it was not asked for. **The two together are
the plain filter** (`listenDbEvents_eq_filter`): the pattern loses nothing that the filter would
keep, and the one thing the filter does not look at, the client, is in every pattern.

That rests on what a client id is. `*` matches colons too, so a pattern says where a client id ends
only because the id has none.
-/

set_option autoImplicit false

namespace ShieldApi

/-! ## 1. What is published -/

/-- The operations of a model that `$allOperations` runs for. -/
inductive PrismaOperation
  | findUnique | findUniqueOrThrow | findFirst | findFirstOrThrow | findMany
  | create | createMany | createManyAndReturn
  | update | updateMany | updateManyAndReturn
  | upsert
  | delete | deleteMany
  | aggregate | groupBy | count
  deriving DecidableEq, Repr

inductive EventOperation
  | create | update | delete
  deriving DecidableEq, Repr

def EventOperation.text : EventOperation → String
  | .create => "create"
  | .update => "update"
  | .delete => "delete"

/-- What comes back of a query, as far as it is looked at. -/
inductive QueryResult
  | null
  /-- A row, with its id if the query selects it. -/
  | row (id : Option String)
  | rows (ids : List (Option String))
  | count (n : Nat)
  deriving DecidableEq, Repr

/-- `'id' in result`: a list of rows has none, nor has a count. -/
def QueryResult.id? : QueryResult → Option String
  | .row id => id
  | .null | .rows _ | .count _ => none

/-- A query of the request client that has run. -/
structure ModelQuery where
  accessGrant : AccessGrant
  model : String
  operation : PrismaOperation
  result : QueryResult
  deriving DecidableEq, Repr

structure RedisMessage where
  channel : String
  message : String
  deriving DecidableEq, Repr

namespace PrismaService

/-- `upsert` is not in the list of the source. -/
def cleanedOperation : PrismaOperation → Option EventOperation
  | .create | .createMany | .createManyAndReturn => some .create
  | .update | .updateMany | .updateManyAndReturn => some .update
  | .delete | .deleteMany => some .delete
  | _ => none

def emitModelEvent (q : ModelQuery) : Option RedisMessage := do
  let operation ← cleanedOperation q.operation
  let eventBody := [("model", q.model), ("operation", operation.text)] ++
    q.result.id?.toList.map fun id => ("id", id)
  pure
    { channel :=
        "db-events:" ++ q.accessGrant.clientId ++ ":" ++ q.model ++ ":" ++ operation.text
      message := JsonRecord.stringify eventBody }

end PrismaService

/-! ## 2. What is listened to -/

inductive SupportedModel
  | manufacturer | productCategory | product | asset | alert | inspection | inspectionRoute
  | productRequest
  deriving DecidableEq, Repr

def SupportedModel.text : SupportedModel → String
  | .manufacturer => "Manufacturer"
  | .productCategory => "ProductCategory"
  | .product => "Product"
  | .asset => "Asset"
  | .alert => "Alert"
  | .inspection => "Inspection"
  | .inspectionRoute => "InspectionRoute"
  | .productRequest => "ProductRequest"

structure ListenDbEventsDto where
  token : String
  models : List SupportedModel
  operations : Option (List EventOperation) := none
  ids : Option (List String) := none

def Json.text? (name : String) : Json → Option String
  | .obj fields =>
    match fields.lookup name with
    | some (.str s) => some s
    | _ => none
  | _ => none

/-- An event as a listener is sent it. -/
abbrev EventPayload : Type := List (String × String)

/-- `payload.name`. Of two fields of one name JSON takes the last. -/
def EventPayload.field (p : EventPayload) (name : String) : Option String := p.reverse.lookup name

/-- The stream of a listener, and whether it ended with an error. -/
structure SseStream where
  payloads : List EventPayload := []
  failed : Bool := false
  deriving DecidableEq, Repr

/-- Redis and the listener's place on the event manager: it hears what is published on the
    channels of its pattern. -/
def RedisService.received (pattern : String) (published : List RedisMessage) : List RedisMessage :=
  published.filter fun m => Glob.Matches pattern m.channel

namespace EventsService

/-- The client a token speaks for, as the channel names it. -/
def clientIdOf (accessGrant : Json) : String :=
  TagsService.textOrUndefined (accessGrant.text? "clientId")

def channelPattern (options : ListenDbEventsDto) (clientId : String) : String :=
  let model :=
    if 1 < options.models.length then "*"
    else TagsService.textOrUndefined (options.models[0]?.map SupportedModel.text)
  let operation :=
    match options.operations with
    | some [operation] => operation.text
    | _ => "*"
  "db-events:" ++ clientId ++ ":" ++ model ++ ":" ++ operation

/-- The in-memory filter. -/
def asksFor (options : ListenDbEventsDto) (payload : EventPayload) : Bool :=
  (options.models.any fun m => payload.field "model" = some m.text) &&
    (options.operations.all fun ops => ops.any fun op => payload.field "operation" = some op.text) &&
      options.ids.all fun ids => ids.any fun id => payload.field "id" = some id

def messageListener (options : ListenDbEventsDto) (s : SseStream) (message : String) : SseStream :=
  -- an observer that had an error takes nothing any more
  if s.failed then s
  else
    match JsonRecord.parse message with
    | none => { s with failed := true }
    | some payload =>
      if asksFor options payload then { s with payloads := s.payloads ++ [payload] } else s

/-- The stream of a listener, from what is published while it listens. -/
def listenDbEvents (codec : TokenCodec) (env : Env) (options : ListenDbEventsDto) :
    AssetApi (List RedisMessage → SseStream) := do
  let accessGrant ← validateToken codec env options.token
  let pattern := channelPattern options (clientIdOf accessGrant)
  pure fun published => (RedisService.received pattern published).foldl
    (fun s m => messageListener options s m.message) {}

end EventsService

/-! ## 3. Events -/

/-- What a query announces. -/
structure ModelEvent where
  clientId : String
  model : String
  operation : EventOperation
  id : Option String
  deriving DecidableEq, Repr

def ModelQuery.event? (q : ModelQuery) : Option ModelEvent :=
  (PrismaService.cleanedOperation q.operation).map fun operation =>
    { clientId := q.accessGrant.clientId, model := q.model, operation, id := q.result.id? }

namespace ModelEvent

variable (e : ModelEvent)

def payload : EventPayload :=
  [("model", e.model), ("operation", e.operation.text)] ++ e.id.toList.map fun id => ("id", id)

def redisMessage : RedisMessage where
  channel := "db-events:" ++ e.clientId ++ ":" ++ e.model ++ ":" ++ e.operation.text
  message := JsonRecord.stringify e.payload

/-- What a listener at `clientId` with these options asks for. -/
def wanted (options : ListenDbEventsDto) (clientId : String) : Bool :=
  e.clientId = clientId && (options.models.any fun m => e.model = m.text) &&
    options.operations.all (·.contains e.operation) &&
      options.ids.all fun ids => ids.any fun id => e.id = some id

end ModelEvent

/-- An id the separators and the wildcards of the channels stay out of. -/
structure IsClientId (clientId : String) : Prop where
  plain : Glob.Plain clientId
  colonless : ':' ∉ clientId.toList

theorem emitModelEvent_eq (q : ModelQuery) :
    PrismaService.emitModelEvent q = q.event?.map ModelEvent.redisMessage := by
  unfold PrismaService.emitModelEvent ModelQuery.event?
  cases PrismaService.cleanedOperation q.operation <;> rfl

theorem filterMap_emitModelEvent (qs : List ModelQuery) :
    qs.filterMap PrismaService.emitModelEvent =
      (qs.filterMap ModelQuery.event?).map ModelEvent.redisMessage := by
  rw [List.map_filterMap]
  congr 1
  funext q
  exact emitModelEvent_eq q

theorem ModelQuery.event?_clientId {q : ModelQuery} {e : ModelEvent} (h : q.event? = some e) :
    e.clientId = q.accessGrant.clientId := by
  obtain ⟨operation, -, rfl⟩ := Option.map_eq_some_iff.mp h
  rfl

/-! ## 4. The pattern -/

theorem SupportedModel.plain_text (m : SupportedModel) : Glob.Plain m.text := by
  cases m <;> exact all_toList_ofList rfl

theorem EventOperation.plain_text (op : EventOperation) : Glob.Plain op.text := by
  cases op <;> exact all_toList_ofList rfl

theorem EventOperation.text_inj {op op' : EventOperation} (h : op.text = op'.text) : op = op' := by
  cases op <;> cases op' <;> first | rfl | exact absurd h (by decide)

/-- A part of a pattern: a plain text or anything. -/
theorem matches_part_append {part text pattern rest : String}
    (hpart : part = "*" ∨ Glob.Plain part ∧ part = text)
    (hrest : Glob.Matches pattern rest = true) :
    Glob.Matches (part ++ pattern) (text ++ rest) = true := by
  rcases hpart with rfl | ⟨hplain, rfl⟩
  · exact Glob.matches_star_append.mpr ⟨text, rest, rfl, hrest⟩
  · exact (Glob.matches_plain_append hplain).mpr ⟨rest, rfl, hrest⟩

namespace EventsService

variable {options : ListenDbEventsDto} {clientId : String} {e : ModelEvent}

/-- What is heard through the pattern is of the listener's client. -/
theorem clientId_of_matches (hclient : IsClientId clientId) (he : IsClientId e.clientId)
    (h : Glob.Matches (channelPattern options clientId) e.redisMessage.channel = true) :
    e.clientId = clientId := by
  have hhead : Glob.Plain ("db-events:" ++ clientId ++ ":") :=
    ((show Glob.Plain "db-events:" by decide).append hclient.plain).append (by decide)
  unfold channelPattern at h
  rw [String.append_assoc, String.append_assoc, Glob.matches_plain_append hhead] at h
  obtain ⟨rest, hchannel, -⟩ := h
  -- both texts go on with the client id, and it ends at the next colon
  have hcut : e.clientId ++ ":" ++ (e.model ++ ":" ++ e.operation.text) =
      clientId ++ ":" ++ rest := by
    have hlist := congrArg String.toList hchannel
    simp only [ModelEvent.redisMessage, String.append_assoc, String.toList_append
      (s := "db-events:")] at hlist
    rw [← String.toList_inj]
    simp only [String.append_assoc]
    exact List.append_cancel_left hlist
  have hsep : ":".toList = [':'] := rfl
  rcases (join_eq_iff hsep).mp hcut with heq | hcut | hcut
  · exact heq.1
  · exact absurd (hcut.mem hsep).2 hclient.colonless
  · exact absurd (hcut.mem hsep).2 he.colonless

/-- What is wanted is heard through the pattern. -/
theorem matches_of_wanted (hclient : IsClientId clientId)
    (h : e.wanted options clientId = true) :
    Glob.Matches (channelPattern options clientId) e.redisMessage.channel = true := by
  unfold ModelEvent.wanted at h
  simp only [Bool.and_eq_true, decide_eq_true_eq, List.any_eq_true] at h
  obtain ⟨⟨⟨rfl, m, hm, hmodel⟩, hoperation⟩, -⟩ := h
  have hcolon : Glob.Plain ":" := by decide
  unfold channelPattern ModelEvent.redisMessage
  simp only [String.append_assoc]
  refine matches_part_append (.inr ⟨by decide, rfl⟩) ?_
  refine matches_part_append (.inr ⟨hclient.plain, rfl⟩) ?_
  refine matches_part_append (.inr ⟨hcolon, rfl⟩) ?_
  refine matches_part_append ?_ (matches_part_append (.inr ⟨hcolon, rfl⟩) ?_)
  · -- one model has its name in the pattern, and the event is about it
    by_cases hmany : 1 < options.models.length
    · rw [if_pos hmany]
      exact .inl rfl
    · have hone : options.models = [m] := by
        cases hmodels : options.models with
        | nil => simp [hmodels] at hm
        | cons m' rest =>
          have hrest : rest = [] := by
            rw [hmodels, List.length_cons] at hmany
            exact List.length_eq_zero_iff.mp (by omega)
          rw [hmodels, hrest, List.mem_singleton] at hm
          rw [hm, hrest]
      rw [if_neg hmany, hone, hmodel]
      exact .inr ⟨m.plain_text, rfl⟩
  · cases hops : options.operations with
    | none => exact Glob.matches_star
    | some ops =>
      rcases ops with _ | ⟨op, _ | ⟨op', rest⟩⟩
      · exact Glob.matches_star
      · rw [hops, Option.all_some, List.contains_iff_mem, List.mem_singleton] at hoperation
        rw [hoperation]
        exact (Glob.matches_plain op.plain_text).mpr rfl
      · exact Glob.matches_star

/-! ## 5. The stream -/

theorem asksFor_payload : asksFor options e.payload =
    ((options.models.any fun m => e.model = m.text) &&
      options.operations.all (·.contains e.operation) &&
        options.ids.all fun ids => ids.any fun id => e.id = some id) := by
  have hmodel : e.payload.field "model" = some e.model := by
    unfold ModelEvent.payload
    cases e.id <;> rfl
  have hoperation : e.payload.field "operation" = some e.operation.text := by
    unfold ModelEvent.payload
    cases e.id <;> rfl
  have hid : e.payload.field "id" = e.id := by
    unfold ModelEvent.payload
    cases e.id <;> rfl
  have hoperations (ops : List EventOperation) :
      (ops.any fun op => decide (e.operation.text = op.text)) = ops.contains e.operation := by
    rw [Bool.eq_iff_iff, List.any_eq_true, List.contains_iff_mem]
    constructor
    · intro h
      obtain ⟨op, hop, htext⟩ := h
      rwa [EventOperation.text_inj (of_decide_eq_true htext)]
    · intro h
      exact ⟨_, h, decide_eq_true rfl⟩
  unfold asksFor
  simp only [hmodel, hoperation, hid, Option.some.injEq, hoperations]

/-- Of the events of the listener's client, the filter passes what is wanted. -/
theorem wanted_eq : e.wanted options clientId =
    (decide (e.clientId = clientId) && asksFor options e.payload) := by
  rw [asksFor_payload]
  unfold ModelEvent.wanted
  simp only [Bool.and_assoc]

/-- Events that are read one after the other: no message is unreadable. -/
theorem foldl_messageListener (options : ListenDbEventsDto) (es : List ModelEvent)
    (payloads : List EventPayload) :
    (es.map ModelEvent.redisMessage).foldl (fun s m => messageListener options s m.message)
        { payloads, failed := false } =
      { payloads := payloads ++ (es.map ModelEvent.payload).filter (asksFor options)
        failed := false } := by
  induction es generalizing payloads with
  | nil => simp
  | cons e es ih =>
    have hone : messageListener options { payloads, failed := false } e.redisMessage.message =
        { payloads := payloads ++ [e.payload].filter (asksFor options), failed := false } := by
      unfold messageListener ModelEvent.redisMessage
      rw [JsonRecord.parse_stringify]
      by_cases hasks : asksFor options e.payload = true
      · simp [hasks]
      · simp [hasks]
    rw [List.map_cons, List.foldl_cons, hone, ih, List.map_cons, List.filter_cons]
    by_cases hasks : asksFor options e.payload = true
    · simp [hasks]
    · simp [hasks]

/-- Through the pattern and the filter comes what is wanted. -/
theorem filter_received (hclient : IsClientId clientId) {es : List ModelEvent}
    (hes : ∀ e ∈ es, IsClientId e.clientId) :
    ((es.filter fun e => Glob.Matches (channelPattern options clientId)
        e.redisMessage.channel).map ModelEvent.payload).filter (asksFor options) =
      (es.filter fun e => e.wanted options clientId).map ModelEvent.payload := by
  rw [List.filter_map, List.filter_filter]
  congr 1
  apply List.filter_congr
  intro e he
  rw [Bool.eq_iff_iff, Bool.and_eq_true]
  constructor
  · intro h
    obtain ⟨hasks, hmatches⟩ := h
    rw [wanted_eq, Bool.and_eq_true]
    exact ⟨decide_eq_true (clientId_of_matches hclient (hes e he) hmatches), hasks⟩
  · intro h
    have hasks := (Bool.and_eq_true _ _).mp (wanted_eq ▸ h)
    exact ⟨hasks.2, matches_of_wanted hclient h⟩

/-- The stream of a listener at `clientId`: what is wanted of what was announced, as it came. -/
theorem foldl_received (options : ListenDbEventsDto) (hclient : IsClientId clientId)
    {qs : List ModelQuery} (hqs : ∀ q ∈ qs, IsClientId q.accessGrant.clientId) :
    (RedisService.received (channelPattern options clientId)
        (qs.filterMap PrismaService.emitModelEvent)).foldl
          (fun s m => messageListener options s m.message) {} =
      { payloads := ((qs.filterMap ModelQuery.event?).filter
          (·.wanted options clientId)).map ModelEvent.payload
        failed := false } := by
  have hes : ∀ e ∈ qs.filterMap ModelQuery.event?, IsClientId e.clientId := by
    intro e he
    obtain ⟨q, hq, hevent⟩ := List.mem_filterMap.mp he
    rw [ModelQuery.event?_clientId hevent]
    exact hqs q hq
  unfold RedisService.received
  rw [filterMap_emitModelEvent, List.filter_map, foldl_messageListener, List.nil_append]
  exact congrArg (fun payloads => SseStream.mk payloads false) (filter_received hclient hes)

theorem listenDbEvents_of_valid {codec : TokenCodec} {env : Env} {options : ListenDbEventsDto}
    {w w' : AssetWorld} {accessGrant : Json}
    (h : (validateToken codec env options.token).run w = (.ok accessGrant, w')) :
    (listenDbEvents codec env options).run w =
      (.ok fun published =>
        (RedisService.received (channelPattern options (clientIdOf accessGrant)) published).foldl
          (fun s m => messageListener options s m.message) {}, w') := by
  unfold listenDbEvents
  rw [Effect.run_bind_ok h]
  rfl

end EventsService

/-- **A listener hears the events of its client that it asked for**, in the order they were
    published, and its stream does not fail on any. -/
theorem listenDbEvents_eq_filter {codec : TokenCodec} {env : Env} {options : ListenDbEventsDto}
    {w w' : AssetWorld} {accessGrant : Json}
    (hvalid : (EventsService.validateToken codec env options.token).run w = (.ok accessGrant, w'))
    (hclient : IsClientId (EventsService.clientIdOf accessGrant)) :
    ∃ stream, (EventsService.listenDbEvents codec env options).run w = (.ok stream, w') ∧
      ∀ qs : List ModelQuery, (∀ q ∈ qs, IsClientId q.accessGrant.clientId) →
        stream (qs.filterMap PrismaService.emitModelEvent) =
          { payloads := ((qs.filterMap ModelQuery.event?).filter
              (·.wanted options (EventsService.clientIdOf accessGrant))).map ModelEvent.payload
            failed := false } := by
  refine ⟨_, EventsService.listenDbEvents_of_valid hvalid, fun qs hqs => ?_⟩
  exact EventsService.foldl_received options hclient hqs

/-! ## 6. Listeners there are -/

@[simp] theorem EventsService.clientIdOf_data (g : AccessGrant) :
    EventsService.clientIdOf g.data = g.clientId := rfl

/-- `streamCodec` for the token of another grant. -/
def streamCodecOf (g : AccessGrant) : TokenCodec :=
  { streamCodec with
    parse := fun s =>
      if s = streamHead then some (tokenHead 1700000000 1700086400) else some g.data }

/-- **Whoever has a grant can listen**: the token it gets is valid, and says what the grant is. -/
theorem streamToken_valid (g : AccessGrant) : ∃ token w₁ w₂,
    (EventsService.generateToken (streamCodecOf g) { accessGrant := some g } streamEnv).run {} =
        (.ok token, w₁) ∧
      (EventsService.validateToken (streamCodecOf g) streamEnv token).run w₁ = (.ok g.data, w₂) := by
  obtain ⟨key, w₁, hget, hlive⟩ := streamKey_created
  have hgrant : ({ accessGrant := some g } : Cls).accessGrant = some g := rfl
  have hheld : KeysHeld {} := fun _ _ hkey => by simp at hkey
  have hdigest : (streamCodecOf g).Digests := streamCodec_digests
  have hhead : (streamCodecOf g).Reads (tokenHead 1700000000 1700086400) := rfl
  have hdata : (streamCodecOf g).Reads g.data := rfl
  obtain ⟨token, hissue⟩ : ∃ token, (EventsService.generateToken (streamCodecOf g)
      { accessGrant := some g } streamEnv).run {} = (.ok token, w₁) :=
    TokenService.events.generateToken_returns hgrant hget hlive
  have hmade := TokenService.events.generateToken_issued hdigest hgrant hissue
  obtain ⟨w₂, hvalid⟩ : ∃ w₂, (AuthService.validateCustomToken (streamCodecOf g) streamEnv
      token).run w₁ = (.ok _, w₂) :=
    AuthService.validateCustomToken_issued hdigest hheld hmade hhead hdata []
  refine ⟨token, w₁, w₂, hissue, ?_⟩
  rw [if_neg (by decide)] at hvalid
  unfold EventsService.validateToken
  exact Effect.run_bind_ok hvalid

theorem acme_isClientId : IsClientId "acme" := ⟨by decide, by decide⟩

/-- What is asked for in `streamListener`. -/
def streamOptions (token : String) : ListenDbEventsDto where
  token
  models := [.asset, .inspection]
  operations := some [.create, .delete]

def streamQueries : List ModelQuery :=
  [{ accessGrant := streamGrant, model := "Asset", operation := .create, result := .row (some "a1") },
   { accessGrant := streamGrant, model := "Asset", operation := .upsert, result := .row (some "a2") },
   { accessGrant := streamGrant, model := "Tag", operation := .create, result := .row (some "t1") },
   { accessGrant := streamGrant, model := "Inspection", operation := .deleteMany,
     result := .count 3 },
   { accessGrant := { streamGrant with clientId := "bolt" }, model := "Asset", operation := .create,
     result := .row (some "a3") }]

/-- Two models and two operations, so that the pattern is of the client's channels altogether. -/
theorem streamListener_hears : ∃ token w₁ w₂ stream,
    (EventsService.generateToken (streamCodecOf streamGrant) streamCls streamEnv).run {} =
        (.ok token, w₁) ∧
      (EventsService.listenDbEvents (streamCodecOf streamGrant) streamEnv
        (streamOptions token)).run w₁ = (.ok stream, w₂) ∧
      stream (streamQueries.filterMap PrismaService.emitModelEvent) =
        { payloads :=
            [[("model", "Asset"), ("operation", "create"), ("id", "a1")],
             [("model", "Inspection"), ("operation", "delete")]] } := by
  obtain ⟨token, w₁, w₂, hissue, hvalid⟩ := streamToken_valid streamGrant
  have hlistener : (EventsService.validateToken (streamCodecOf streamGrant) streamEnv
      (streamOptions token).token).run w₁ = (.ok streamGrant.data, w₂) := hvalid
  obtain ⟨stream, hlisten, hhears⟩ := listenDbEvents_eq_filter hlistener acme_isClientId
  have hclients : ∀ q ∈ streamQueries, IsClientId q.accessGrant.clientId := by
    intro q hq
    have hids : ∀ q ∈ streamQueries, Glob.Plain q.accessGrant.clientId ∧
        ':' ∉ q.accessGrant.clientId.toList := by decide
    exact ⟨(hids q hq).1, (hids q hq).2⟩
  have hwanted : (streamQueries.filterMap ModelQuery.event?).filter
      (·.wanted (streamOptions token) "acme") =
        [⟨"acme", "Asset", .create, some "a1"⟩, ⟨"acme", "Inspection", .delete, none⟩] := by
    rfl
  refine ⟨token, w₁, w₂, stream, hissue, hlisten, ?_⟩
  rw [hhears streamQueries hclients, EventsService.clientIdOf_data]
  exact congrArg (fun es => SseStream.mk (es.map ModelEvent.payload) false) hwanted

end ShieldApi
