import ShieldApi.Legacy.Catalog

/-!
# The migration of a client

`LegacyMigrationService.processMigration`, after the client was selected: its row, its site groups
and sites, and its assets with their places on the default routes of their sites. A `Map` is a list of
what was set, the last first.

The maps of sites and assets are loaded before the loops. **That of the route points is loaded when a
default route is first needed, and it is consulted before that**: see `migrateRouteAssignment`.
-/

set_option autoImplicit false

namespace ShieldApi

namespace LegacyMigrationService

variable (legacy : LegacyDb) (legacyClient : LegacyModels.Client) (run : MigrationRun)

/-! ## 1. The client -/

/-- Nothing comes of it if the client is there and the caller would rather not go on. -/
def migrateClient (db : MigrationDb) : Option (MigrationDb × ClientBasic) :=
  match db.clients.rows.find? (·.legacyClientId = legacyClient.c_id) with
  | some newClient => if run.continues then some (db, newClient) else none
  | none =>
    let (clients, newClient) :=
      db.clients.create run.ids (fun id => { id, legacyClientId := legacyClient.c_id }) fun _ => rfl
    some ({ db with clients }, newClient)

/-- `client: { legacyClientId: legacyClient.c_id }`. -/
def isLegacyClients (clients : Table ClientBasic String ClientBasic.id) (clientId : String) : Bool :=
  (clients.find? clientId).any (·.legacyClientId = legacyClient.c_id)

/-! ## 2. Sites -/

def alreadyMigratedSites (db : MigrationDb) : List SiteBasic :=
  db.sites.rows.filter fun s => isLegacyClients legacyClient db.clients s.clientId

/-- Of two sites with one external id, the map has the later one. -/
def siteGroupOf (alreadyMigrated : List SiteBasic) (group_id : String) : Option SiteBasic :=
  alreadyMigrated.reverse.find? fun s => truthyString s.legacyGroupId = some group_id

def siteOf (alreadyMigrated : List SiteBasic) (loc_id : String) : Option SiteBasic :=
  alreadyMigrated.reverse.find? fun s => truthyString s.legacySiteId = some loc_id

structure SitesState where
  sites : Table SiteBasic String SiteBasic.id
  legacyPrimaryKeyToNewSiteGroupIdMap : List (Int × String) := []
  legacyPrimaryKeyToNewSiteMap : List (Int × SiteBasic) := []

def migrateSiteGroup (newClient : ClientBasic) (alreadyMigrated : List SiteBasic) (st : SitesState)
    (g : LegacyModels.Group) : SitesState :=
  match g.group_id with
  | none => st
  | some group_id =>
    match siteGroupOf alreadyMigrated group_id with
    | some s =>
      { st with
        legacyPrimaryKeyToNewSiteGroupIdMap :=
          (g.group_no, s.id) :: st.legacyPrimaryKeyToNewSiteGroupIdMap }
    | none =>
      let (sites, newSiteGroup) := st.sites.create run.ids
        (fun id =>
          { id
            name := g.group_name.getD "Unknown"
            clientId := newClient.id
            legacyGroupId := some group_id })
        fun _ => rfl
      { st with
        sites
        legacyPrimaryKeyToNewSiteGroupIdMap :=
          (g.group_no, newSiteGroup.id) :: st.legacyPrimaryKeyToNewSiteGroupIdMap }

/-- The caller is asked for a name if there is an address to ask by. -/
def siteName (loc : LegacyModels.Location) : Option String :=
  if (truthyString loc.loc_name).isNone &&
      ((truthyString loc.loc_addr1).isSome || (truthyString loc.loc_city).isSome) then
    some (run.siteName loc)
  else loc.loc_name

/-- A site without name and assets is left out. -/
def isLeftOut (loc : LegacyModels.Location) : Bool :=
  (truthyString (siteName run loc)).isNone && legacy.assets.all (·.a_loc_no ≠ some loc.loc_no)

def migrateSite (newClient : ClientBasic) (alreadyMigrated : List SiteBasic) (st : SitesState)
    (loc : LegacyModels.Location) : SitesState :=
  match truthyString loc.loc_id with
  | none => st
  | some loc_id =>
    match siteOf alreadyMigrated loc_id with
    | some s =>
      { st with
        legacyPrimaryKeyToNewSiteMap := (loc.loc_no, s) :: st.legacyPrimaryKeyToNewSiteMap }
    | none =>
      if isLeftOut legacy run loc then st
      else
        let (sites, newSite) := st.sites.create run.ids
          (fun id =>
            { id
              name := ((siteName run loc).or (loc.loc_city.or loc.loc_state)).getD "Unknown"
              clientId := newClient.id
              legacySiteId := some loc_id
              parentSiteId :=
                loc.loc_group_no.bind (st.legacyPrimaryKeyToNewSiteGroupIdMap.lookup ·) })
          fun _ => rfl
        { st with
          sites
          legacyPrimaryKeyToNewSiteMap := (loc.loc_no, newSite) :: st.legacyPrimaryKeyToNewSiteMap }

/-- The client's locations, the latest first. -/
def legacySites : List LegacyModels.Location :=
  legacy.locations.filter (·.loc_c_no = some legacyClient.c_no)

def legacySiteGroups : List LegacyModels.Group :=
  legacy.groups.filter (·.group_c_no = some legacyClient.c_no)

def migrateSites (newClient : ClientBasic) (db : MigrationDb) :
    MigrationDb × List (Int × SiteBasic) :=
  let alreadyMigrated := alreadyMigratedSites legacyClient db
  let st := (legacySiteGroups legacy legacyClient).foldl
    (migrateSiteGroup run newClient alreadyMigrated) { sites := db.sites }
  let st := (legacySites legacy legacyClient).foldl
    (migrateSite legacy run newClient alreadyMigrated) st
  ({ db with sites := st.sites }, st.legacyPrimaryKeyToNewSiteMap)

/-! ## 3. Places on default routes -/

structure AssetsState where
  db : MigrationDb
  defaultInspectionRoutesBySiteId : List (String × InspectionRouteBasic) := []
  assetIdToInspectionRoutePointMap : List (String × InspectionRoutePointBasic) := []

/-- `name.includes('Default')`. -/
def includesDefault (name : String) : Bool :=
  name.toList.tails.any ("Default".toList.isPrefixOf ·)

def loadDefaultInspectionRoute (st : AssetsState) (route : InspectionRouteBasic) : AssetsState :=
  let points := st.db.inspectionRoutePoints.rows.filter (·.inspectionRouteId = route.id)
  { st with
    defaultInspectionRoutesBySiteId := (route.siteId, route) :: st.defaultInspectionRoutesBySiteId
    assetIdToInspectionRoutePointMap :=
      (points.map fun point => (point.assetId, point)).reverse ++
        st.assetIdToInspectionRoutePointMap }

def getOrCreateDefaultInspectionRoute (newClient : ClientBasic) (sites : List (Int × SiteBasic))
    (st : AssetsState) (siteId : String) : AssetsState × InspectionRouteBasic :=
  match st.defaultInspectionRoutesBySiteId.lookup siteId with
  | some route => (st, route)
  | none =>
    -- the existing routes, and with them their points, if there are none in the map
    let st :=
      if st.defaultInspectionRoutesBySiteId.isEmpty then
        (st.db.inspectionRoutes.rows.filter fun route =>
          route.clientId = newClient.id && includesDefault route.name).foldl
            loadDefaultInspectionRoute st
      else st
    match st.defaultInspectionRoutesBySiteId.lookup siteId with
    | some route => (st, route)
    | none =>
      let name :=
        match sites.find? (·.2.id = siteId) with
        | some ownerSite => ownerSite.2.name ++ " Default"
        | none => "Default"
      let (inspectionRoutes, newDefaultRoute) := st.db.inspectionRoutes.create run.ids
        (fun id => { id, name, siteId, clientId := newClient.id }) fun _ => rfl
      ({ st with
          db := { st.db with inspectionRoutes }
          defaultInspectionRoutesBySiteId :=
            (siteId, newDefaultRoute) :: st.defaultInspectionRoutesBySiteId },
        newDefaultRoute)

def migrateRouteAssignment (newClient : ClientBasic) (sites : List (Int × SiteBasic))
    (st : AssetsState) (assetId siteId : String) (order : Int) : AssetsState :=
  match st.assetIdToInspectionRoutePointMap.lookup assetId with
  | some _ => st
  | none =>
    let (st, defaultRoute) := getOrCreateDefaultInspectionRoute run newClient sites st siteId
    -- the map may have been loaded by now, and may have a point of the asset
    let (inspectionRoutePoints, newPoint) := st.db.inspectionRoutePoints.create run.ids
      (fun id => { id, assetId, inspectionRouteId := defaultRoute.id, order }) fun _ => rfl
    { st with
      db := { st.db with inspectionRoutePoints }
      assetIdToInspectionRoutePointMap :=
        (assetId, newPoint) :: st.assetIdToInspectionRoutePointMap }

/-! ## 4. Assets -/

variable (equalsInsensitive : String → String → Bool)

def alreadyMigratedAssets (db : MigrationDb) : List AssetBasic :=
  db.assets.rows.filter fun a => isLegacyClients legacyClient db.clients a.clientId

def assetOf (alreadyMigrated : List AssetBasic) (a_id : String) : Option AssetBasic :=
  alreadyMigrated.reverse.find? (·.legacyAssetId = some a_id)

/-- The asset's place in the order, if it has one. -/
def migratePlace (newClient : ClientBasic) (sites : List (Int × SiteBasic))
    (legacyAsset : LegacyModels.Asset) (asset : AssetBasic) (st : AssetsState) : AssetsState :=
  match legacyAsset.a_sort with
  | none => st
  | some order => migrateRouteAssignment run newClient sites st asset.id asset.siteId order

/-- The asset's tag, if it has one. -/
def migrateTagOf (legacyAsset : LegacyModels.Asset) (newSite : SiteBasic)
    (tags : Table TagBasic String TagBasic.id) : Table TagBasic String TagBasic.id :=
  match legacyAsset.a_t_no with
  | none => tags
  | some a_t_no => (getOrMigrateTag legacy run.ids a_t_no newSite tags).1

/-- An asset that is not there yet, at a site that is. -/
def createAsset (newClient : ClientBasic) (sites : List (Int × SiteBasic)) (st : AssetsState)
    (legacyAsset : LegacyModels.Asset) (a_id : String) (newSite : SiteBasic) : AssetsState :=
  let (catalog, product) := getOrMigrateProduct legacy legacyClient newClient equalsInsensitive
    run.ids (productSource legacy legacyAsset.a_p_no legacyAsset.a_cat_no) st.db.catalog
  -- looked up at the same time, and linked to the asset if there will be one
  let tags := migrateTagOf legacy run legacyAsset newSite st.db.tags
  let st := { st with db := { st.db with catalog, tags } }
  match product with
  | none => st
  | some product =>
    let (assets, asset) := st.db.assets.create run.ids
      (fun id =>
        { id
          legacyAssetId := some a_id
          productId := product.id
          siteId := newSite.id
          clientId := newSite.clientId })
      fun _ => rfl
    migratePlace run newClient sites legacyAsset asset { st with db := { st.db with assets } }

def migrateAsset (newClient : ClientBasic) (sites : List (Int × SiteBasic))
    (alreadyMigrated : List AssetBasic) (st : AssetsState) (legacyAsset : LegacyModels.Asset) :
    AssetsState :=
  match legacyAsset.a_id with
  | none => st
  | some a_id =>
    match assetOf alreadyMigrated a_id with
    | some newAsset => migratePlace run newClient sites legacyAsset newAsset st
    | none =>
      match legacyAsset.a_loc_no.bind (sites.lookup ·) with
      | none => st
      | some newSite =>
        createAsset legacy legacyClient run equalsInsensitive newClient sites st legacyAsset a_id
          newSite

/-- The assets at the client's locations. -/
def legacyAssets : List LegacyModels.Asset :=
  legacy.assets.filter fun a => (legacySites legacy legacyClient).any (a.a_loc_no = some ·.loc_no)

def migrateAssets (newClient : ClientBasic) (sites : List (Int × SiteBasic)) (db : MigrationDb) :
    MigrationDb :=
  ((legacyAssets legacy legacyClient).foldl
    (migrateAsset legacy legacyClient run equalsInsensitive newClient sites
      (alreadyMigratedAssets legacyClient db)) { db }).db

/-! ## 5. `processMigration` -/

/-- `none` if the caller does not go on. -/
def processMigration (db : MigrationDb) : Option MigrationDb :=
  (migrateClient legacyClient run db).map fun (db, newClient) =>
    let (db, sites) := migrateSites legacy legacyClient run newClient db
    migrateAssets legacy legacyClient run equalsInsensitive newClient sites db

end LegacyMigrationService

end ShieldApi
