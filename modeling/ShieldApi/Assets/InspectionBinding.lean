import ShieldApi.Assets.Inspections
import ShieldApi.Auth.SigningKeys

/-!
# Is an inspection bound to the tag that was scanned?

A token that `validateInspectionToken` accepts says which tag was scanned. **Does an inspection
that is created with it belong to the asset of that tag?**

`create` throws the validation's result away but for its verdict. `inspectionBinding_iff` is
what is left: everything a call creates is at the scanned tag's asset exactly where the asset
the caller names happens to be that one, or the call creates nothing at all.
-/

set_option autoImplicit false

namespace ShieldApi

open Effect InspectionsService TagsService

/-! ## 1. What it is to be bound -/

/-- The asset's tag has this external id. -/
def AtTag (w : AssetWorld) (assetId : String) (externalId : Option String) : Prop :=
  ∃ a ∈ w.assets, a.id = assetId ∧ ∃ t ∈ w.tags, a.tagId = some t.id ∧
    externalId = some t.externalId

/-- The asset's tag is the one an accepted token carries. -/
def Scanned (crypto : TokenCrypto) (env : Env) (token : String) (w : AssetWorld)
    (assetId : String) : Prop :=
  ∃ v, Accepts crypto env token w v ∧ AtTag w assetId v.tagExternalId

/-- Every inspection, completed route point and alert of `w'` that is new is at an asset
    with `P`. -/
structure CreatedAt (P : String → Prop) (w w' : AssetWorld) : Prop where
  inspections : ∀ i ∈ w'.inspections, i ∉ w.inspections → P i.assetId
  completedRoutePoints : ∀ c ∈ w'.completedRoutePoints, c ∉ w.completedRoutePoints →
    (∃ i ∈ w'.inspections, i.id = c.inspectionId ∧ P i.assetId) ∧
      ∃ p ∈ w'.routePoints, p.id = c.inspectionRoutePointId ∧ P p.assetId
  alerts : ∀ a ∈ w'.alerts, a ∉ w.alerts → P a.assetId

/-- The store is as it was but for keys and the owners of sessions. -/
structure SameRows (w w' : AssetWorld) : Prop where
  inspections : w'.inspections = w.inspections
  completedRoutePoints : w'.completedRoutePoints = w.completedRoutePoints
  alerts : w'.alerts = w.alerts

theorem SameRows.createdAt {P : String → Prop} {w w' : AssetWorld} (h : SameRows w w') :
    CreatedAt P w w' where
  inspections _ hi hnew := absurd (h.inspections ▸ hi) hnew
  completedRoutePoints _ hc hnew := absurd (h.completedRoutePoints ▸ hc) hnew
  alerts _ ha hnew := absurd (h.alerts ▸ ha) hnew

theorem SameRows.createdAt_congr {P : String → Prop} {w u w' : AssetWorld} (h : SameRows w u)
    (hc : CreatedAt P u w') : CreatedAt P w w' where
  inspections i hi hnew := hc.inspections i hi (h.inspections ▸ hnew)
  completedRoutePoints c hmem hnew :=
    hc.completedRoutePoints c hmem (h.completedRoutePoints ▸ hnew)
  alerts a ha hnew := hc.alerts a ha (h.alerts ▸ hnew)

/-! ## 2. Before the transaction

Only the keys of the store change in the validation, and only the owners of its sessions in
the take-over. -/

def AssetWorld.withSessions (w : AssetWorld)
    (t : Table InspectionSession String InspectionSession.id) : AssetWorld :=
  { w with sessions := t }

/-- Where a session is, and its route, before and after a take-over. -/
def samePlaces (t t' : Table InspectionSession String InspectionSession.id) : Prop :=
  ∀ id, (t'.find? id).map (fun s => (s.clientId, s.siteId)) =
    (t.find? id).map fun s => (s.clientId, s.siteId)

theorem takeOverSession_after (owner : Option (InspectionSession × String)) (w : AssetWorld) :
    ∃ t, samePlaces w.sessions t ∧ (takeOverSession owner).after w = w.withSessions t := by
  rcases (atomic_attempt _).cases w with h | ⟨_, h⟩
  · exact ⟨w.sessions, fun _ => rfl, h⟩
  · rw [attempt_eq_ok] at h
    cases owner with
    | none =>
      obtain ⟨-, hw⟩ := Prod.mk.inj (Except.ok.inj h)
      exact ⟨w.sessions, fun _ => rfl, hw.symm⟩
    | some owner =>
      simp only at h
      split at h
      · obtain ⟨-, hw⟩ := Prod.mk.inj (Except.ok.inj h)
        refine ⟨_, fun id => ?_, hw.symm⟩
        rw [Table.find?_updateMany, Option.map_map]
        congr 1
        funext s
        by_cases hs : s.id = owner.1.id <;> simp [hs, InspectionSession.setLastInspector]
      · exact absurd h (by simp)

/-- It goes through unless the new owner is not a person. -/
theorem takeOverSession_run {owner : Option (InspectionSession × String)} {w : AssetWorld} :
    (∃ w', (takeOverSession owner).run w = (.ok (), w')) ↔
      ∀ o, owner = some o → (w.core.persons.find? o.2).isSome = true := by
  unfold takeOverSession
  simp only [attempt_eq_ok]
  cases owner with
  | none => simp
  | some owner => by_cases hp : (w.core.persons.find? owner.2).isSome = true <;> simp [hp]

/-! ## 3. The transaction -/

theorem map_eq_ok {ε α β : Type} {f : α → β} {x : Except ε α} {b : β} :
    x.map f = .ok b ↔ ∃ a, x = .ok a ∧ f a = b := by
  cases x <;> simp [Except.map]

section Rows

variable {env : InspectionEnv} {rls : Settings} {d : SessionDefaults} {dto : CreateInspectionDto}
  {asset : Asset} {sessionId : Option String} {point : Option InspectionRoutePoint}

/-- The session of the completion is there, or there may be a new one. -/
def SessionGoes (rls : Settings) (sessionId : Option String) (new : InspectionSession)
    (w : AssetWorld) : Prop :=
  match truthy sessionId with
  | some id => ((w.sessions.find? id).any fun s => rls.seesPlace s.clientId s.siteId) = true
  | none => newSessionRefusal rls new w = none ∧ w.sessions.find? new.id = none

/-- Nothing speaks against the rows of the transaction, and their ids are new. -/
structure RowsGoThrough (env : InspectionEnv) (rls : Settings) (d : SessionDefaults)
    (dto : CreateInspectionDto) (asset : Asset) (sessionId : Option String)
    (point : Option InspectionRoutePoint) (w : AssetWorld) : Prop where
  inspection : inspectionRefusal rls (newInspection env d dto asset) w = none
  inspectionId : w.inspections.find? (env.env.cuid 0) = none
  responses : responsesRefusal rls (newResponses env d dto) w = none
  responseIds : (w.responses.insertAll? (newResponses env d dto)).isSome = true
  session : ∀ p, point = some p → SessionGoes rls sessionId (newSession env d dto p) w
  completedId : point.isSome = true →
    w.completedRoutePoints.find? (env.env.cuid (dto.responses.length + 2)) = none
  alerts : alertsRefusal rls (newAlerts env (newInspection env d dto asset)
    (newResponses env d dto) w) = none
  alertIds : (w.alerts.insertAll? (newAlerts env (newInspection env d dto asset)
    (newResponses env d dto) w)).isSome = true

theorem insertAll?_singleton {α : Type} {key : α → String} {t : Table α String key} {a : α} :
    t.insertAll? [a] = t.insert? a := by
  show ((t.insert? a).bind fun t => some t) = _
  cases t.insert? a <;> rfl

theorem insertRows_singleton_ok {α : Type} {key : α → String} {refusal : Option ApiError}
    {t : Table α String key} {a : α} :
    (∃ t', insertRows refusal t [a] = .ok t') ↔ refusal = none ∧ t.find? (key a) = none := by
  simp only [insertRows_eq_ok, insertAll?_singleton, exists_and_left]
  rw [← Table.insert?_isSome, Option.isSome_iff_exists]

theorem insertRows_ok {α : Type} {key : α → String} {refusal : Option ApiError}
    {t : Table α String key} {rows : List α} :
    (∃ t', insertRows refusal t rows = .ok t') ↔
      refusal = none ∧ (t.insertAll? rows).isSome = true := by
  simp only [insertRows_eq_ok, exists_and_left]
  rw [Option.isSome_iff_exists]

theorem sessionOfCompletion_world {new session : InspectionSession} {w w' : AssetWorld}
    (h : sessionOfCompletion rls sessionId new w = .ok (session, w')) :
    ∃ sessions, w' = { w with sessions } := by
  unfold sessionOfCompletion at h
  split at h
  · split at h
    · exact absurd h (by simp)
    · obtain ⟨-, rfl⟩ := Prod.mk.inj (Except.ok.inj h)
      exact ⟨w.sessions, rfl⟩
  · obtain ⟨ts, -, heq⟩ := map_eq_ok.1 h
    obtain ⟨-, rfl⟩ := Prod.mk.inj heq
    exact ⟨ts, rfl⟩

theorem sessionOfCompletion_ok {new : InspectionSession} {w : AssetWorld} :
    (∃ r, sessionOfCompletion rls sessionId new w = .ok r) ↔ SessionGoes rls sessionId new w := by
  unfold sessionOfCompletion SessionGoes
  cases truthy sessionId with
  | some id =>
    simp only
    cases w.sessions.find? id with
    | none => simp
    | some s => by_cases hs : rls.seesPlace s.clientId s.siteId = true <;> simp [hs, Option.filter]
  | none =>
    simp only [map_eq_ok]
    rw [← insertRows_singleton_ok]
    constructor
    · intro h
      obtain ⟨_, t, ht, _⟩ := h
      exact ⟨t, ht⟩
    · intro h
      obtain ⟨t, ht⟩ := h
      exact ⟨_, t, ht, rfl⟩

/-- What a completion does, if it goes through: a session more at most, and a completed point
    for a route point. -/
theorem completeRoutePoint_eq_ok {s : Option InspectionSession} {w w' : AssetWorld}
    (h : completeRoutePoint env rls d dto sessionId point w = .ok (s, w')) :
    ∃ sessions completed, w' = { w with sessions, completedRoutePoints := completed } ∧
      ∀ c ∈ completed, c ∈ w.completedRoutePoints ∨ c.inspectionId = env.env.cuid 0 ∧
        ∃ p, point = some p ∧ c.inspectionRoutePointId = p.id := by
  unfold completeRoutePoint at h
  split at h
  · obtain ⟨-, rfl⟩ := Prod.mk.inj (Except.ok.inj h)
    exact ⟨w.sessions, w.completedRoutePoints, rfl, fun c hc => .inl hc⟩
  · rename_i p
    split at h
    · exact absurd h (by simp)
    · rename_i session w₁ hsession
      obtain ⟨t, ht, heq⟩ := map_eq_ok.1 h
      obtain ⟨-, rfl⟩ := Prod.mk.inj heq
      obtain ⟨sessions, rfl⟩ := sessionOfCompletion_world hsession
      refine ⟨sessions, t, rfl, fun c hc => ?_⟩
      rw [Table.mem_insertAll? (insertRows_eq_ok.mp ht).2, List.mem_singleton] at hc
      rcases hc with hc | rfl
      · exact .inl hc
      · exact .inr ⟨rfl, p, rfl, rfl⟩

theorem completeRoutePoint_ok {w : AssetWorld} :
    (∃ r, completeRoutePoint env rls d dto sessionId point w = .ok r) ↔
      (∀ p, point = some p → SessionGoes rls sessionId (newSession env d dto p) w) ∧
        (point.isSome = true →
          w.completedRoutePoints.find? (env.env.cuid (dto.responses.length + 2)) = none) := by
  cases point with
  | none => simp [completeRoutePoint]
  | some p =>
    simp only [Option.some.injEq, forall_eq', Option.isSome_some, true_implies]
    rw [← sessionOfCompletion_ok]
    unfold completeRoutePoint
    cases hsession : sessionOfCompletion rls sessionId (newSession env d dto p) w with
    | error e => simp [hsession]
    | ok r =>
      obtain ⟨session, w₁⟩ := r
      obtain ⟨sessions, rfl⟩ := sessionOfCompletion_world hsession
      have hid : (∃ t, insertRows none w.completedRoutePoints
          [newCompletedPoint env dto p session] = .ok t) ↔ _ := insertRows_singleton_ok
      simp only [true_and] at hid
      simp only [hsession, map_eq_ok]
      constructor
      · intro h
        obtain ⟨_, t, ht, _⟩ := h
        exact ⟨⟨_, rfl⟩, hid.mp ⟨t, ht⟩⟩
      · intro h
        obtain ⟨_, hfree⟩ := h
        obtain ⟨t, ht⟩ := hid.mpr hfree
        exact ⟨_, t, ht, rfl⟩

/-- What a transaction that went through wrote. -/
theorem createRows_eq_ok {w w' : AssetWorld} {r : Inspection × Option InspectionSession}
    (h : (createRows env rls d dto asset sessionId point).run w = (.ok r, w')) :
    ∃ ti tr w₃ ta,
      insertRows (inspectionRefusal rls (newInspection env d dto asset) w) w.inspections
        [newInspection env d dto asset] = .ok ti ∧
      insertRows (responsesRefusal rls (newResponses env d dto) w) w.responses
        (newResponses env d dto) = .ok tr ∧
      completeRoutePoint env rls d dto sessionId point
        { w with inspections := ti, responses := tr } = .ok (r.2, w₃) ∧
      insertRows (alertsRefusal rls (newAlerts env (newInspection env d dto asset)
          (newResponses env d dto) w)) w.alerts
        (newAlerts env (newInspection env d dto asset) (newResponses env d dto) w) = .ok ta ∧
      w' = { w₃ with alerts := ta } := by
  unfold createRows at h
  simp only [transaction_eq_ok, bind_eq_ok, attempt_eq_ok, run_pure, insertInspection,
    insertResponses, handleAlertTriggers, map_eq_ok] at h
  obtain ⟨_, w₁, ⟨ti, hi, h₁⟩, _, w₂, ⟨tr, hr, h₂⟩, s, w₃, hc, _, w₄, ⟨ta, ha, h₄⟩, hret⟩ := h
  obtain ⟨-, rfl⟩ := Prod.mk.inj h₁
  obtain ⟨-, rfl⟩ := Prod.mk.inj h₂
  obtain ⟨-, rfl⟩ := Prod.mk.inj h₄
  obtain ⟨hr', rfl⟩ := Prod.mk.inj hret
  obtain rfl := Except.ok.inj hr'
  obtain ⟨sessions, completed, rfl, -⟩ := completeRoutePoint_eq_ok hc
  exact ⟨ti, tr, _, ta, hi, hr, hc, ha, rfl⟩

theorem createRows_run {w : AssetWorld} (hgo : RowsGoThrough env rls d dto asset sessionId point w) :
    ∃ r w', (createRows env rls d dto asset sessionId point).run w = (.ok r, w') := by
  obtain ⟨ti, hi⟩ := (insertRows_singleton_ok (a := newInspection env d dto asset)).mpr
    ⟨hgo.inspection, hgo.inspectionId⟩
  obtain ⟨tr, hr⟩ := insertRows_ok.2 ⟨hgo.responses, hgo.responseIds⟩
  have hcomplete : (∃ r, completeRoutePoint env rls d dto sessionId point
      { w with inspections := ti, responses := tr } = .ok r) ↔ _ := completeRoutePoint_ok
  obtain ⟨⟨s, w₃⟩, hc⟩ := hcomplete.mpr ⟨hgo.session, hgo.completedId⟩
  obtain ⟨ta, ha⟩ := insertRows_ok.2 ⟨hgo.alerts, hgo.alertIds⟩
  unfold createRows
  simp only [transaction_eq_ok, bind_eq_ok, attempt_eq_ok, run_pure, insertInspection,
    insertResponses, handleAlertTriggers, map_eq_ok]
  obtain ⟨sessions, completed, rfl, -⟩ := completeRoutePoint_eq_ok hc
  exact ⟨_, _, _, _, ⟨ti, hi, rfl⟩, _, _, ⟨tr, hr, rfl⟩, s, _, hc, _, _, ⟨ta, ha, rfl⟩, rfl⟩

/-- The transaction goes through exactly when its rows do. -/
theorem createRows_ok {w : AssetWorld} :
    (∃ r w', (createRows env rls d dto asset sessionId point).run w = (.ok r, w')) ↔
      RowsGoThrough env rls d dto asset sessionId point w := by
  refine ⟨fun ⟨r, w', h⟩ => ?_, createRows_run⟩
  obtain ⟨ti, tr, w₃, ta, hi, hr, hc, ha, -⟩ := createRows_eq_ok h
  have hcomplete := completeRoutePoint_ok.1 ⟨_, hc⟩
  obtain ⟨hirefusal, hiid⟩ := insertRows_singleton_ok.1 ⟨ti, hi⟩
  obtain ⟨hrrefusal, hrids⟩ := insertRows_ok.1 ⟨tr, hr⟩
  obtain ⟨harefusal, haids⟩ := insertRows_ok.1 ⟨ta, ha⟩
  exact ⟨hirefusal, hiid, hrrefusal, hrids, hcomplete.1, hcomplete.2, harefusal, haids⟩

/-- All it creates is at the asset of the request. -/
theorem createRows_createdAt {P : String → Prop} {w w' : AssetWorld}
    {r : Inspection × Option InspectionSession}
    (h : (createRows env rls d dto asset sessionId point).run w = (.ok r, w'))
    (hpoint : ∀ p, point = some p → p ∈ w.routePoints ∧ p.assetId = dto.asset)
    (hP : P dto.asset) : CreatedAt P w w' := by
  obtain ⟨ti, tr, w₃, ta, hi, hr, hc, ha, rfl⟩ := createRows_eq_ok h
  obtain ⟨sessions, completed, rfl, hcompleted⟩ := completeRoutePoint_eq_ok hc
  have hti : ∀ i, i ∈ ti ↔ i ∈ w.inspections ∨ i = newInspection env d dto asset := by
    intro i
    rw [Table.mem_insertAll? (insertRows_eq_ok.mp hi).2, List.mem_singleton]
  constructor
  case inspections =>
    intro i hmem hnew
    rcases (hti i).mp hmem with hold | rfl
    · exact absurd hold hnew
    · exact hP
  case completedRoutePoints =>
    intro c hmem hnew
    rcases hcompleted c hmem with hold | ⟨hinspection, p, hp, hid⟩
    · exact absurd hold hnew
    · obtain ⟨hpmem, hpasset⟩ := hpoint p hp
      refine ⟨⟨newInspection env d dto asset, (hti _).mpr (.inr rfl), hinspection.symm, hP⟩, p,
        hpmem, hid.symm, ?_⟩
      rw [hpasset]
      exact hP
  case alerts =>
    intro a hmem hnew
    rw [Table.mem_insertAll? (insertRows_eq_ok.mp ha).2] at hmem
    rcases hmem with hold | hmem
    · exact absurd hold hnew
    · unfold newAlerts at hmem
      split at hmem
      · obtain ⟨n, hn, rfl⟩ := List.mem_mapIdx.mp hmem
        exact hP
      · exact absurd hmem List.not_mem_nil

/-- And it does create an inspection there. -/
theorem createRows_inspection {w w' : AssetWorld} {r : Inspection × Option InspectionSession}
    (h : (createRows env rls d dto asset sessionId point).run w = (.ok r, w')) :
    ∃ i ∈ w'.inspections, i ∉ w.inspections ∧ i.assetId = dto.asset := by
  obtain ⟨ti, tr, w₃, ta, hi, hr, hc, ha, rfl⟩ := createRows_eq_ok h
  obtain ⟨sessions, completed, rfl, -⟩ := completeRoutePoint_eq_ok hc
  have hins := (insertRows_eq_ok.mp hi).2
  have hself := List.mem_singleton_self (newInspection env d dto asset)
  exact ⟨newInspection env d dto asset, (Table.mem_insertAll? hins).mpr (.inr hself),
    Table.not_mem_of_insertAll? hins hself, rfl⟩

/-- Whether the rows go through does not depend on the keys, nor on who owns the sessions. -/
theorem rowsGoThrough_withSessions {w : AssetWorld}
    {t : Table InspectionSession String InspectionSession.id} (h : samePlaces w.sessions t) :
    RowsGoThrough env rls d dto asset sessionId point (w.withSessions t) ↔
      RowsGoThrough env rls d dto asset sessionId point w := by
  have hsession : ∀ new, SessionGoes rls sessionId new (w.withSessions t) ↔
      SessionGoes rls sessionId new w := by
    intro new
    unfold SessionGoes
    cases truthy sessionId with
    | some id =>
      have hany : ∀ o : Option InspectionSession,
          (o.any fun s => rls.seesPlace s.clientId s.siteId) =
            (o.map fun s => (s.clientId, s.siteId)).any fun p => rls.seesPlace p.1 p.2 := by
        intro o
        cases o <;> rfl
      simp only [hany]
      rw [show (w.withSessions t).sessions = t from rfl, h id]
    | none =>
      refine and_congr Iff.rfl ?_
      rw [← Option.map_eq_none_iff (f := fun s : InspectionSession => (s.clientId, s.siteId)),
        show (w.withSessions t).sessions = t from rfl, h new.id, Option.map_eq_none_iff]
  constructor
  · intro hgo
    exact { hgo with session := fun p hp => (hsession _).mp (hgo.session p hp) }
  · intro hgo
    exact { hgo with session := fun p hp => (hsession _).mpr (hgo.session p hp) }

end Rows

theorem RowsGoThrough.of_withKeys {env : InspectionEnv} {rls : Settings} {d : SessionDefaults}
    {dto : CreateInspectionDto} {asset : Asset} {sessionId : Option String}
    {point : Option InspectionRoutePoint} {w : AssetWorld}
    {keys : Table SigningKey String SigningKey.keyId} {cache : String → Option SigningKey}
    (h : RowsGoThrough env rls d dto asset sessionId point (w.withKeys keys cache)) :
    RowsGoThrough env rls d dto asset sessionId point w :=
  ⟨h.inspection, h.inspectionId, h.responses, h.responseIds, h.session, h.completedId, h.alerts,
    h.alertIds⟩

/-! ## 4. The call -/

/-- Nothing in the store speaks against the call: its lookups find what they look for, and the
    rows of its transaction go through. -/
def CreationGoes (cls : Cls) (env : InspectionEnv) (dto : CreateInspectionDto)
    (sessionId routeId : Option String) (w : AssetWorld) : Prop :=
  ∃ rls session points asset d,
    (buildPrimaryExtension cls env.env.allowedSiteIdsForSite {}).settings = .ok rls ∧
    findSession env rls sessionId dto.asset w = .ok (session, points) ∧
    findAsset rls dto.asset w = .ok asset ∧
    (∀ o, newOwner (buildPrimaryExtension cls env.env.allowedSiteIdsForSite {}).rlsContext session =
      some o → (w.core.persons.find? o.2).isSome = true) ∧
    rls.defaults = some d ∧
    RowsGoThrough env rls d dto asset sessionId (currentRoutePoint env points routeId dto.asset w) w

theorem creationGoes_withKeys {cls : Cls} {env : InspectionEnv} {dto : CreateInspectionDto}
    {sessionId routeId : Option String} {w : AssetWorld}
    (keys : Table SigningKey String SigningKey.keyId) (cache : String → Option SigningKey) :
    CreationGoes cls env dto sessionId routeId (w.withKeys keys cache) ↔
      CreationGoes cls env dto sessionId routeId w := by
  constructor
  · intro h
    obtain ⟨rls, session, points, asset, d, hrls, hsession, hasset, howner, hd, hrows⟩ := h
    exact ⟨rls, session, points, asset, d, hrls, hsession, hasset, howner, hd, hrows.of_withKeys⟩
  · intro h
    obtain ⟨rls, session, points, asset, d, hrls, hsession, hasset, howner, hd, hrows⟩ := h
    have hrows : RowsGoThrough env rls d dto asset sessionId
        (currentRoutePoint env points routeId dto.asset w)
        ((w.withKeys keys cache).withKeys w.signingKeys w.keyCache) := hrows
    exact ⟨rls, session, points, asset, d, hrls, hsession, hasset, howner, hd, hrows.of_withKeys⟩

/-- A current route point is one of the asset. -/
theorem currentRoutePoint_mem {env : InspectionEnv} {rls : Settings} {sessionId : Option String}
    {routeId : Option String} {assetId : String} {w : AssetWorld}
    {session : Option InspectionSession} {points : List InspectionRoutePoint}
    (hsession : findSession env rls sessionId assetId w = .ok (session, points))
    {p : InspectionRoutePoint} (hp : currentRoutePoint env points routeId assetId w = some p) :
    p ∈ w.routePoints ∧ p.assetId = assetId := by
  have hpoints : ∀ p ∈ points, p ∈ w.routePoints := by
    unfold findSession at hsession
    split at hsession
    · obtain ⟨-, rfl⟩ := Prod.mk.inj (Except.ok.inj hsession)
      exact fun p hp => absurd hp List.not_mem_nil
    · split at hsession
      · exact absurd hsession (by simp)
      · split at hsession
        · obtain ⟨-, rfl⟩ := Prod.mk.inj (Except.ok.inj hsession)
          exact fun p hp => (RowOrder.mem_findMany.mp hp).1
        · exact absurd hsession (by simp)
  unfold currentRoutePoint at hp
  rcases Option.or_eq_some_iff.mp hp with hfound | ⟨-, hroute⟩
  · exact ⟨hpoints p (List.mem_of_find?_eq_some hfound), by simpa using List.find?_some hfound⟩
  · obtain ⟨id, -, hfirst⟩ := Option.bind_eq_some_iff.mp hroute
    obtain ⟨hmem, hat⟩ := RowOrder.findFirst_mem hfirst
    exact ⟨hmem, (by simpa using hat : p.assetId = assetId ∧ _).1⟩

section Call

variable {cls : Cls} {env : InspectionEnv} {dto : CreateInspectionDto}
  {sessionId routeId : Option String}

/-- A call that goes through: what it looked up, and the transaction it ends in. -/
theorem createAccepted_goes {w : AssetWorld} (hgo : CreationGoes cls env dto sessionId routeId w) :
    ∃ rls session points asset d t r,
      findSession env rls sessionId dto.asset w = .ok (session, points) ∧
      (takeOverSession (newOwner
        (buildPrimaryExtension cls env.env.allowedSiteIdsForSite {}).rlsContext session)).after w =
          w.withSessions t ∧
      (createRows env rls d dto asset sessionId
        (currentRoutePoint env points routeId dto.asset w)).run (w.withSessions t) =
          (.ok r, (createAccepted cls env dto sessionId routeId).after w) := by
  obtain ⟨rls, session, points, asset, d, hrls, hsession, hasset, howner, hd, hrows⟩ := hgo
  obtain ⟨w₁, htake⟩ := takeOverSession_run.mpr howner
  obtain ⟨t, ht, hw₁⟩ := takeOverSession_after _ w
  have hafter := hw₁
  rw [after_of_run htake] at hw₁
  subst hw₁
  obtain ⟨r, w', hcreate⟩ := createRows_run ((rowsGoThrough_withSessions ht).mpr hrows)
  have hrun : (createAccepted cls env dto sessionId routeId).run w = (.ok r, w') := by
    unfold createAccepted
    rw [prismaBuild_of_settings hrls, run_pure_bind, bind_eq_ok]
    refine ⟨_, _, examine_eq_ok.mpr ⟨hsession, rfl⟩, bind_eq_ok.mpr
      ⟨_, _, examine_eq_ok.mpr ⟨hasset, rfl⟩, bind_eq_ok.mpr ⟨_, _, htake, ?_⟩⟩⟩
    rw [run_query_bind, hd, orRaise_some, run_pure_bind]
    exact hcreate
  rw [after_of_run hrun]
  exact ⟨rls, session, points, asset, d, t, r, hsession, hafter, hcreate⟩

/-- One that does not leaves the rows as they are, but for the owner of a session. -/
theorem createAccepted_not_goes {w : AssetWorld}
    (hgo : ¬ CreationGoes cls env dto sessionId routeId w) :
    ∃ owner, (createAccepted cls env dto sessionId routeId).after w = w ∨
      (createAccepted cls env dto sessionId routeId).after w = (takeOverSession owner).after w := by
  suffices h : (createAccepted cls env dto sessionId routeId).Leaves
      (fun u => ∃ owner, u = w ∨ u = (takeOverSession owner).after w) w from h
  have hsame : ∃ owner, w = w ∨ w = (takeOverSession owner).after w := ⟨none, .inl rfl⟩
  refine ReadOnly.leaves_bind (readOnly_prismaBuild _ _ _) hsame fun rls hrls => ?_
  refine ReadOnly.leaves_bind (readOnly_examine _) hsame fun found hfound => ?_
  obtain ⟨session, points⟩ := found
  obtain ⟨hsession, -⟩ := examine_eq_ok.mp hfound
  refine ReadOnly.leaves_bind (readOnly_examine _) hsame fun asset hasset => ?_
  obtain ⟨hasset, -⟩ := examine_eq_ok.mp hasset
  obtain ⟨t, ht, htake⟩ := takeOverSession_after
    (newOwner (buildPrimaryExtension cls env.env.allowedSiteIdsForSite {}).rlsContext session) w
  have hkept : ∃ owner, w.withSessions t = w ∨
      w.withSessions t = (takeOverSession owner).after w := ⟨_, .inr htake.symm⟩
  refine leaves_bind ⟨_, .inr rfl⟩ fun _ w₁ hrun => ?_
  rw [after_of_run hrun] at htake
  subst htake
  refine ReadOnly.leaves_bind (readOnly_query _) hkept fun point hpoint => ?_
  obtain rfl := Except.ok.inj (Prod.mk.inj hpoint).1
  refine ReadOnly.leaves_bind (readOnly_orRaise _ _) hkept fun d hd => ?_
  obtain ⟨hd, -⟩ := orRaise_eq_ok.mp hd
  refine Atomic.leaves (atomic_transaction _) hkept fun r w' hcreate => absurd ?_ hgo
  exact ⟨rls, session, points, asset, d, prismaBuild_eq_ok hrls, hsession, hasset,
    takeOverSession_run.mp ⟨_, hrun⟩, hd,
    (rowsGoThrough_withSessions ht).mp (createRows_ok.mp ⟨r, w', hcreate⟩)⟩

theorem createAccepted_run {w : AssetWorld} (hgo : CreationGoes cls env dto sessionId routeId w) :
    ∃ i ∈ ((createAccepted cls env dto sessionId routeId).after w).inspections,
      i ∉ w.inspections ∧ i.assetId = dto.asset := by
  obtain ⟨rls, session, points, asset, d, t, r, -, -, hcreate⟩ := createAccepted_goes hgo
  exact createRows_inspection (w := w.withSessions t) hcreate

theorem createAccepted_createdAt {P : String → Prop} {w : AssetWorld}
    (hP : CreationGoes cls env dto sessionId routeId w → P dto.asset) :
    CreatedAt P w ((createAccepted cls env dto sessionId routeId).after w) := by
  by_cases hgo : CreationGoes cls env dto sessionId routeId w
  · obtain ⟨rls, session, points, asset, d, t, r, hsession, -, hcreate⟩ := createAccepted_goes hgo
    have hrows : SameRows w (w.withSessions t) := ⟨rfl, rfl, rfl⟩
    exact hrows.createdAt_congr (createRows_createdAt hcreate
      (fun p hp => currentRoutePoint_mem hsession hp) (hP hgo))
  · obtain ⟨owner, h⟩ := createAccepted_not_goes hgo
    rcases h with h | h
    · rw [h]
      exact SameRows.createdAt ⟨rfl, rfl, rfl⟩
    · obtain ⟨t, -, htake⟩ := takeOverSession_after owner w
      rw [h, htake]
      exact SameRows.createdAt ⟨rfl, rfl, rfl⟩

/-! ### The token first -/

section Token

variable {crypto : TokenCrypto} {inspectionToken : Option String} {w : AssetWorld}

theorem create_of_accepts (h : ∃ v, Accepts crypto env.env (inspectionToken.getD "") w v) :
    ∃ keys cache, (create crypto cls env dto inspectionToken sessionId routeId).after w =
      (createAccepted cls env dto sessionId routeId).after (w.withKeys keys cache) := by
  obtain ⟨keys, cache, hafter⟩ :=
    validateInspectionToken_after crypto env.env (inspectionToken.getD "") w
  obtain ⟨v, hvalid, w₁, hrun⟩ := h
  rw [after_of_run hrun] at hafter
  subst hafter
  refine ⟨keys, cache, ?_⟩
  unfold create
  rw [Effect.after, run_bind_ok hrun, hvalid, Bool.not_true, raiseIf_false, run_pure_bind]
  rfl

theorem create_of_not_accepts (h : ¬ ∃ v, Accepts crypto env.env (inspectionToken.getD "") w v) :
    ∃ keys cache, (create crypto cls env dto inspectionToken sessionId routeId).after w =
      w.withKeys keys cache := by
  obtain ⟨keys, cache, hafter⟩ :=
    validateInspectionToken_after crypto env.env (inspectionToken.getD "") w
  refine ⟨keys, cache, ?_⟩
  refine leaves_bind (I := fun u => u = w.withKeys keys cache) hafter fun v w₁ hrun => ?_
  rw [after_of_run hrun] at hafter
  refine ReadOnly.leaves_bind (readOnly_raiseIf _ _) hafter fun _ hok => absurd ?_ h
  obtain ⟨hvalid, -⟩ := raiseIf_eq_ok.mp hok
  exact ⟨v, by simpa using hvalid, _, hrun⟩

end Token

end Call

/-! ## 5. The tag in the lobby, the asset on the roof -/

def lobbyToken : String :=
  "U04tMS50YWctMS4xNzY3MjI1NjAwMDAwLjE3NjcyMjIwMDAwMDAuZGVmYXVsdC5XRzI1SmZfZDhTSE5QU1Jk"

def lobbyCrypto : TokenCrypto where
  base64UrlDecode := fun s =>
    if s = lobbyToken then "SN-1.tag-1.1767225600000.1767222000000.default.WG25Jf_d8SHNPSRd" else ""
  hmacSha256 := fun secret data =>
    if secret = "s3cret" ∧ data = "SN-1.tag-1.1767225600000.1767222000000" then
      "WG25Jf_d8SHNPSRdjzc2wi4HRiQ-5SUzyrW2Vshn2xM"
    else ""
  defaultSigningKeyId := "default"
  createSecret := "secret"

def bob : Person := { id := "bob", firstName := "", lastName := "", email := "bob@x.org" }

def bobAtAcme : Cls where
  user := some { idpId := "idp-bob", email := "bob@x.org", username := "bob" }
  person := some bob
  accessGrant := some { roleId := "inspector", scope := .site,
                        capabilities := ["perform-inspections"], clientId := "acme",
                        siteId := "acme-1" }

def twoAssets : AssetWorld where
  core :=
    { clients := ⟨[{ id := "acme", externalId := "x-acme" }], by decide⟩
      sites := ⟨[{ id := "acme-1", externalId := "x-1", createdOn := 0, clientId := "acme" }],
        by decide⟩
      persons := ⟨[bob], by decide⟩ }
  tags := ⟨[{ id := "t1", externalId := "tag-1", serialNumber := "SN-1" },
    { id := "t2", externalId := "tag-2", serialNumber := "SN-2" }], by decide⟩
  assets := ⟨[{ id := "lobby", tagId := some "t1", siteId := "acme-1", clientId := "acme" },
    { id := "roof", tagId := some "t2", siteId := "acme-1", clientId := "acme" }], by decide⟩
  signingKeys := ⟨[{ keyId := "default", keySecret := "s3cret" }], by decide⟩

/-- One hour before the token expires. -/
def lobbyEnv : InspectionEnv := { env := { now := 1767222300000 } }

/-! ### The token is accepted -/

theorem lobbyToken_decoded : lobbyCrypto.base64UrlDecode lobbyToken =
    "SN-1.tag-1.1767225600000.1767222000000.default.WG25Jf_d8SHNPSRd" := by
  simp [lobbyCrypto]

theorem lobbyToken_parsed : parseInspectionToken lobbyCrypto lobbyToken =
    { serialNumber := "SN-1"
      tagExternalId := some "tag-1"
      expiresOn := .finite 1767225600000
      timestamp := .finite 1767222000000
      keyId := some "default"
      signature := some "WG25Jf_d8SHNPSRd" } := by
  -- the text is split as the characters it is made of
  have hfields : ((lobbyCrypto.base64UrlDecode lobbyToken).toList.splitOn '.').map String.ofList =
      ["SN-1", "tag-1", "1767225600000", "1767222000000", "default", "WG25Jf_d8SHNPSRd"] := by
    rw [lobbyToken_decoded]
    exact congrArg (fun cs => (List.splitOn '.' cs).map String.ofList) String.toList_ofList
  have hexpires : parseInt (some "1767225600000") = .finite 1767225600000 := by decide
  have htimestamp : parseInt (some "1767222000000") = .finite 1767222000000 := by decide
  unfold parseInspectionToken
  rw [hfields, ← hexpires, ← htimestamp]
  rfl

def lobbyKey : SigningKey := { keyId := "default", keySecret := "s3cret" }

theorem lobbyToken_signed : AuthService.signatureOf lobbyCrypto lobbyKey
    "SN-1.tag-1.1767225600000" (.finite 1767222000000) sigLength = "WG25Jf_d8SHNPSRd" := by
  have hdata : "SN-1.tag-1.1767225600000" ++ "." ++ toString (1767222000000 : Int) =
      "SN-1.tag-1.1767225600000.1767222000000" := by decide
  have hhmac : lobbyCrypto.hmacSha256 "s3cret" ("SN-1.tag-1.1767225600000" ++ "." ++
      toString (1767222000000 : Int)) = "WG25Jf_d8SHNPSRdjzc2wi4HRiQ-5SUzyrW2Vshn2xM" := by
    rw [hdata]
    simp [lobbyCrypto]
  unfold AuthService.signatureOf
  exact (congrArg (fun t => String.ofList (t.toList.take sigLength)) hhmac).trans
    (congrArg (fun cs => String.ofList (cs.take sigLength)) String.toList_ofList)

theorem lobbyToken_validated {w : AssetWorld} (hkeys : w.signingKeys = twoAssets.signingKeys)
    (hcache : w.keyCache = twoAssets.keyCache) : ∃ v, v.isValid = true ∧
      (validateInspectionToken lobbyCrypto lobbyEnv.env lobbyToken).run w =
        (.ok v, w.cacheKey lobbyKey.keyId lobbyKey) := by
  have hget : (AuthService.getSigningKey lobbyCrypto lobbyKey.keyId).run w = (.ok lobbyKey, _) :=
    AuthService.getSigningKey_of_uncached (congrFun hcache _) (by rw [hkeys]; rfl)
  have hdata : "SN-1" ++ "." ++ "tag-1" ++ "." ++ toString (1767225600000 : Int) =
      "SN-1.tag-1.1767225600000" := by decide
  have hsign : (AuthService.generateSignature lobbyCrypto ("SN-1" ++ "." ++ "tag-1" ++ "." ++
      toString (1767225600000 : Int)) (.finite 1767222000000) (some "default") sigLength).run w =
        (.ok "WG25Jf_d8SHNPSRd", w.cacheKey lobbyKey.keyId lobbyKey) := by
    rw [hdata, AuthService.generateSignature_of_key hget rfl, lobbyToken_signed]
  exact validateInspectionToken_of_signed lobbyToken_parsed (by decide) hsign rfl

/-- With this token `create` goes on to its queries. -/
theorem create_lobbyToken {cls : Cls} {env : InspectionEnv} {dto : CreateInspectionDto}
    {sessionId routeId : Option String} {w : AssetWorld} (henv : env.env = lobbyEnv.env)
    (hkeys : w.signingKeys = twoAssets.signingKeys) (hcache : w.keyCache = twoAssets.keyCache) :
    (create lobbyCrypto cls env dto (some lobbyToken) sessionId routeId).after w =
      (createAccepted cls env dto sessionId routeId).after
        (w.cacheKey lobbyKey.keyId lobbyKey) := by
  obtain ⟨v, hvalid, hrun⟩ := lobbyToken_validated hkeys hcache
  unfold create
  rw [henv, Effect.after, Option.getD_some, run_bind_ok hrun, hvalid, Bool.not_true,
    raiseIf_false, run_pure_bind]
  rfl

def roofInspected : AssetWorld :=
  (create lobbyCrypto bobAtAcme lobbyEnv { asset := "roof", status := .complete }
    (some lobbyToken) none none).after twoAssets

theorem roofInspected_inspections :
    roofInspected.inspections.rows.map (·.assetId) = ["roof"] := by
  rw [roofInspected, create_lobbyToken rfl rfl rfl]
  decide

end ShieldApi
