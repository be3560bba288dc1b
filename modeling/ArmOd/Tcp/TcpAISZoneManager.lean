import ArmOd.Base.Latest
import ArmOd.Tcp.TcpAISCoder

/-!
# The zones of the AIS service

The service has a file for every region, and the square that is asked for is answered from the file
of a region around it. `TcpAISZoneManager` chooses the file by the bounds of `TcpAISZoneDefines.h`,
and `Parser`, which it replaced, by its own. A bound is read as the `double` nearest to it.
-/

namespace ArmOd

/-- The two tests of a region: its file takes the place of the one chosen so far. -/
def selectRegion (fp : Numerics) (latitudeMax latitudeMin longitudeMin longitudeMax : ℚ)
    (url : String) (latitude1 latitude2 longinude1 longinude2 : Double) (zone : String) : String :=
  if latitude1.lt (fp.ofRat latitudeMax) && (fp.ofRat latitudeMin).lt latitude2 then
    if (fp.ofRat longitudeMin).lt longinude1 && longinude2.lt (fp.ofRat longitudeMax) then url
    else zone
  else zone

def TCP_AIS_URL_STANDART : String := "http://bma.fr24.com/zones/"

def TCP_AIS_URL_FULL_MAP : String := "full_all.js"

/-- The bounds of a region and its file. -/
structure AISRegion where
  latitudeMin : ℚ
  latitudeMax : ℚ
  longitudeMin : ℚ
  longitudeMax : ℚ
  url : String
  deriving DecidableEq, Repr

namespace AISRegion

def EUROPE : AISRegion where
  latitudeMin := 33.57
  latitudeMax := 72.57
  longitudeMin := -16.96
  longitudeMax := 55.05
  url := "europe_all.js"

def NORTHAMERICA : AISRegion where
  latitudeMin := 3.0
  latitudeMax := 75.0
  longitudeMin := -180.0
  longitudeMax := -52.0
  url := "northamerica_all.js"

def SOUTHAMERICA : AISRegion where
  latitudeMin := -57.0
  latitudeMax := 16.0
  longitudeMin := -96.0
  longitudeMax := -31.0
  url := "southamerica_all.js"

def OCEANIA : AISRegion where
  latitudeMin := -55.08
  latitudeMax := 19.62
  longitudeMin := 88.40
  longitudeMax := 180.0
  url := "oceania_all.js"

def ASIA : AISRegion where
  latitudeMin := 12.48
  latitudeMax := 79.98
  longitudeMin := 40.91
  longitudeMax := 179.77
  url := "asia_all.js"

def AFRICA : AISRegion where
  latitudeMin := -39.0
  latitudeMax := 39.0
  longitudeMin := -29.0
  longitudeMax := 55.0
  url := "africa_all.js"

def ATLANTIC : AISRegion where
  latitudeMin := 15.62
  latitudeMax := 52.69
  longitudeMin := -50.90
  longitudeMax := -4.75
  url := "atlantic_all.js"

def MALDIVES : AISRegion where
  latitudeMin := -6.08
  latitudeMax := 10.72
  longitudeMin := 63.10
  longitudeMax := 86.53
  url := "maldives_all.js"

def NORTHATLANTIC : AISRegion where
  latitudeMin := 59.02
  latitudeMax := 82.62
  longitudeMin := -84.53
  longitudeMax := 4.45
  url := "northatlantic_all.js"

def select (fp : Numerics) (r : AISRegion) (z : AISZone) (zone : String) : String :=
  selectRegion fp r.latitudeMax r.latitudeMin r.longitudeMin r.longitudeMax r.url z.latitudeMax
    z.latitudeMin z.longitudeMin z.longitudeMax zone

end AISRegion

structure TcpAISZoneManager where
  m_lastZone : AISZone := {}
  deriving DecidableEq, Repr

namespace TcpAISZoneManager

open AISRegion

def getLastZone (manager : TcpAISZoneManager) : AISZone := manager.m_lastZone

def getZone (_manager : TcpAISZoneManager) (fp : Numerics) (aisZone : AISZone) :
    String × TcpAISZoneManager :=
  let m_lastZone := aisZone
  let zone := TCP_AIS_URL_FULL_MAP
  let zone := EUROPE.select fp m_lastZone zone
  let zone := NORTHAMERICA.select fp m_lastZone zone
  let zone := SOUTHAMERICA.select fp m_lastZone zone
  let zone := OCEANIA.select fp m_lastZone zone
  let zone := ASIA.select fp m_lastZone zone
  let zone := AFRICA.select fp m_lastZone zone
  let zone := ATLANTIC.select fp m_lastZone zone
  let zone := MALDIVES.select fp m_lastZone zone
  let zone := NORTHATLANTIC.select fp m_lastZone zone
  (zone, { m_lastZone })

end TcpAISZoneManager

/-- The address of `connectToHostAISInternalSlot` for a host of four numbers. -/
def TcpAISController.connectToHostAISInternalSlot (fp : Numerics)
    (m_zoneManager : TcpAISZoneManager) (host : Text) : Option (String × TcpAISZoneManager) :=
  match Text.split [':'] host with
  | [latitudeMax, longitudeMin, latitudeMin, longitudeMax] =>
      let zone : AISZone :=
        { latitudeMax := fp.toDouble latitudeMax, longitudeMin := fp.toDouble longitudeMin,
          latitudeMin := fp.toDouble latitudeMin, longitudeMax := fp.toDouble longitudeMax }
      let (url, m_zoneManager) := m_zoneManager.getZone fp zone
      some (TCP_AIS_URL_STANDART ++ url, m_zoneManager)
  | _ => none

/-- The square of the older parser. -/
structure Parser where
  latitude1 : Double := 0
  latitude2 : Double := 0
  longinude1 : Double := 0
  longinude2 : Double := 0
  deriving DecidableEq, Repr

namespace Parser

def NewSquere (_p : Parser) (lat1 lon1 lat2 lon2 : Double) : Parser where
  latitude1 := lat1
  latitude2 := lat2
  longinude1 := lon1
  longinude2 := lon2

def SelectZone (p : Parser) (fp : Numerics) : String :=
  let select (latitudeMax latitudeMin longitudeMin longitudeMax : ℚ) (url zone : String) : String :=
    selectRegion fp latitudeMax latitudeMin longitudeMin longitudeMax url p.latitude1 p.latitude2
      p.longinude1 p.longinude2 zone
  let zone := "full_all.js"
  let zone := select 72.57 33.57 (-16.96) 55.05 "europe_all.js" zone
  let zone := select 75.0 3.0 (-180.0) (-52.0) "northamerica_all.js" zone
  let zone := select 16.0 (-57.0) (-96.0) (-31.0) "southamerica_all.js" zone
  let zone := select 19.62 (-55.08) 88.40 180.0 "oceania_all.js" zone
  let zone := select 79.98 12.48 40.91 179.77 "asia_all.js" zone
  let zone := select 39.0 (-39.0) (-29.0) 55.0 "africa_all.js" zone
  let zone := select 52.69 15.62 (-50.90) (-4.75) "atlantic_all.js" zone
  let zone := select 10.72 (-6.08) 63.10 86.53 "maldives_all.js" zone
  let zone := select 82.62 59.02 (-84.53) 4.45 "northatlantic_all.js" zone
  zone

/-- The address `ParserWork` asks for. -/
def siteUrl (p : Parser) (fp : Numerics) : String :=
  "http://bma.fr24.com/zones/" ++ p.SelectZone fp

end Parser

/-! ### The region that is chosen -/

namespace AISRegion

/-- In the order of the tests. -/
def regions : List AISRegion :=
  [EUROPE, NORTHAMERICA, SOUTHAMERICA, OCEANIA, ASIA, AFRICA, ATLANTIC, MALDIVES, NORTHATLANTIC]

/-- The box of the region strictly contains the rectangle on all four sides. -/
def Contains (fp : Numerics) (r : AISRegion) (z : AISZone) : Prop :=
  z.latitudeMax.lt (fp.ofRat r.latitudeMax) = true ∧
    (fp.ofRat r.latitudeMin).lt z.latitudeMin = true ∧
    (fp.ofRat r.longitudeMin).lt z.longitudeMin = true ∧
    z.longitudeMax.lt (fp.ofRat r.longitudeMax) = true

instance (fp : Numerics) (z : AISZone) : DecidablePred fun r => Contains fp r z :=
  fun _ => inferInstanceAs (Decidable (_ ∧ _ ∧ _ ∧ _))

/-- The file of the last region around the rectangle, or the one of the full map. -/
def lastUrl (fp : Numerics) (z : AISZone) : String :=
  ((regions.filter fun r => Contains fp r z).getLast?.map url).getD TCP_AIS_URL_FULL_MAP

variable {fp : Numerics} {r : AISRegion} {z : AISZone} {zone : String}

theorem select_eq : r.select fp z zone = if Contains fp r z then r.url else zone := by
  rw [select, selectRegion, ← ite_and]
  refine if_congr ?_ rfl rfl
  simp only [Bool.and_eq_true, Contains, and_assoc]

theorem nodup_urls : (TCP_AIS_URL_FULL_MAP :: regions.map url).Nodup := by
  decide

/-- With bounds that are numbers, a region contains a rectangle when every point of the rectangle
is in the inside of its box. -/
theorem contains_iff_subset {south north west east : ℚ} (hlatitude : south ≤ north)
    (hlongitude : west ≤ east) :
    Contains .exact r ⟨.fin north, .fin west, .fin south, .fin east⟩ ↔
      Set.Icc south north ×ˢ Set.Icc west east ⊆
        Set.Ioo r.latitudeMin r.latitudeMax ×ˢ Set.Ioo r.longitudeMin r.longitudeMax := by
  rw [Set.prod_subset_prod_iff, Set.Icc_subset_Ioo_iff hlatitude, Set.Icc_subset_Ioo_iff hlongitude,
    Set.Icc_eq_empty_iff, Set.Icc_eq_empty_iff, or_iff_left (by tauto)]
  simp only [Contains, Numerics.exact, Double.lt, decide_eq_true_eq]
  exact ⟨fun ⟨hnorth, hsouth, hwest, heast⟩ => ⟨⟨hsouth, hnorth⟩, hwest, heast⟩,
    fun ⟨⟨hsouth, hnorth⟩, hwest, heast⟩ => ⟨hnorth, hsouth, hwest, heast⟩⟩

end AISRegion

open AISRegion

theorem TcpAISZoneManager.getZone_fst (fp : Numerics) (manager : TcpAISZoneManager) (z : AISZone) :
    (manager.getZone fp z).1 = lastUrl fp z := by
  rw [lastUrl, ← foldl_overwrite]
  simp only [decide_eq_true_eq, ← select_eq]
  rfl

/-- The address is the one the older parser asks for with the square that the coder filters by. -/
theorem TcpAISController.slot_eq {fp : Numerics} {m_zoneManager after : TcpAISZoneManager}
    {host : Text} {address : String} (p : Parser)
    (h : connectToHostAISInternalSlot fp m_zoneManager host = some (address, after)) :
    address = (p.NewSquere after.getLastZone.latitudeMax after.getLastZone.longitudeMin
      after.getLastZone.latitudeMin after.getLastZone.longitudeMax).siteUrl fp := by
  rw [connectToHostAISInternalSlot] at h
  split at h
  · obtain ⟨rfl, rfl⟩ := Prod.mk.inj (Option.some.inj h)
    rfl
  · cases h

/-- Both choose the file of the last region around the rectangle. -/
theorem getZone_eq_lastUrl (fp : Numerics) (manager : TcpAISZoneManager) (p : Parser)
    (z : AISZone) :
    (manager.getZone fp z).1 = lastUrl fp z ∧
      (p.NewSquere z.latitudeMax z.longitudeMin z.latitudeMin z.longitudeMax).SelectZone fp =
        (manager.getZone fp z).1 :=
  ⟨manager.getZone_fst fp z, rfl⟩

-- the square of `Ais.cpp`
example : (TcpAISZoneManager.getZone {} .exact ⟨.fin 60.7209, .fin 28.0289, .fin 58.8187,
    .fin 34.0933⟩).1 = "europe_all.js" := by
  decide +kernel

end ArmOd
