import ArmOd.DbBla.Targets
import ArmOd.Qt.Decimal

/-!
# BLAPerehvatDialog

The dialog in which enemies are assigned to one of our UAVs for interception. An assignment is a
target of the type `InterceptType` for the enemy and a mission of the UAV to it; the box of an enemy
writes and deletes the two, and `init` shows what there is.

All dialogs share the connection of one name, so what they do to the tables they do one after the
other on one session.
-/

namespace ArmOd

/-- The language of the texts: that of the source, or the one the application installs. -/
inductive Language where
  | source
  | ru
  deriving DecidableEq, Repr

/-- The calls of the map client. -/
inductive MapCall where
  | addInterception (blaId bplaId : Int) (blaInfoList bplaInfoList : List (Nat × InfoRow))
  | removeInterception (blaId bplaId : Int)
  deriving DecidableEq, Repr

namespace BLAPerehvatDialog

open DbUavController DbUavManager

/-- `tr( "#" )`. -/
def numberSign : Language → Char
  | .source => '#'
  | .ru => '№'

/-- `tr( "UAV_enemy: #%1" ).arg( uavId )`. -/
def itemText (language : Language) (uavId : Nat) : Text :=
  (match language with
    | .source => "UAV_enemy: #"
    | .ru => "БПЛА: №").toList ++ (QString.number uavId).toList

def interceptTargetTypeId : DbM Int := do
  let interceptTargetTypeId ← getTargetTypeByName "InterceptType"
  if INVALID_INDEX = interceptTargetTypeId then addTargetType "InterceptType"
  else return interceptTargetTypeId

/-- The box of an enemy has been checked. -/
def check (m_id enemyUavId : Int) : DbM (List MapCall) := do
  let interceptTargetTypeId ← interceptTargetTypeId
  let uavEnemy ← getUavByUavId (uint enemyUavId)
  let uavFriend ← getUavByUavId (uint m_id)
  let targetId ← addTarget
    { uavId := uavEnemy.id, ip := uavEnemy.ip, port := 1000, type := interceptTargetTypeId }
  let _ ← addUavMission {
    uavId := uint uavFriend.id, targetId := uint targetId, regionCenterLat := 0
    regionCenterLon := 0, regionCenterAltitude := 0, regionRadius := 0, timeToTarget := 0 }
  let (_, uavFriendInfoList) ← getUavInfoByUavId (uint uavFriend.id)
  let (_, uavEnemyInfoList) ← getUavInfoByUavId (uint uavEnemy.id)
  return [.addInterception m_id enemyUavId uavFriendInfoList uavEnemyInfoList]

/-- The box of an enemy has been unchecked. -/
def uncheck (m_id enemyUavId : Int) : DbM (List MapCall) := do
  let uavF ← getUavByUavId (uint m_id)
  let (_, targets) ← getTargetsByUavId (uint enemyUavId)
  let (_, missionsList) ← getUavMissionsByUavId (uint uavF.id)
  missionsList.foldlM (fun calls mission =>
    targets.foldlM (fun calls target => do
      if mission.targetId = uint target.id then
        let _ ← deleteUavMissionsByTargetId (uint target.id)
        let _ ← deleteTargetsById (uint target.id)
        return calls ++ [.removeInterception m_id enemyUavId]
      else return calls) calls) []

/-- `treeItemChangedSlot`; `none` is an index outside the pieces of the text. -/
def treeItemChangedSlot (language : Language) (m_id : Int) (text : Text) (checked : Bool) :
    DbM (Option (List MapCall)) :=
  match (Text.split [numberSign language] text)[1]? with
  | none => return none
  | some piece => do
    let enemyUavId := Text.toInt piece
    if checked then return some (← check m_id enemyUavId)
    else return some (← uncheck m_id enemyUavId)

/-- Whether the item of an enemy is checked: one of the targets is for it. -/
def checkState (m_id : Int) (enemyUav : Uav) : DbM Bool := do
  let uavFriend ← getUavByUavId (uint m_id)
  let (_, targets) ← getTargetsByUavIdAndTargetType (uint uavFriend.id) "InterceptType"
  return targets.any fun target => target.uavId = enemyUav.id

/-- `init`: the texts and the states of the items. -/
def init (language : Language) (id : Int) (knownUavList : QMap Nat Uav) :
    DbM (List (Text × Bool)) := do
  let (_, enemyUavs) ← getUavsByRole ENEMY_UAV_ROLE
  enemyUavs.foldlM (fun items enemyUav => do
    if !knownUavList.contains enemyUav.uavId then return items
    return items ++ [(itemText language enemyUav.uavId, ← checkState id enemyUav)]) []

/-! ### What the text of an item says -/

theorem toInt_number {n : Nat} (h : n < 2 ^ 31) : Text.toInt (QString.number n).toList = n := by
  rw [QString.toList_number, Text.toInt_toDigits, if_pos h]

theorem exists_front (language : Language) : ∃ front : Text, numberSign language ∉ front ∧
    ∀ uavId, itemText language uavId =
      front ++ numberSign language :: (QString.number uavId).toList := by
  cases language with
  | source => exact ⟨"UAV_enemy: ".toList, by decide, fun _ => rfl⟩
  | ru => exact ⟨"БПЛА: ".toList, by decide, fun _ => rfl⟩

theorem getElem?_split_itemText (language : Language) (uavId : Nat) :
    (Text.split [numberSign language] (itemText language uavId))[1]? =
      some (QString.number uavId).toList := by
  obtain ⟨front, hfront, htext⟩ := exists_front language
  have hnumber : numberSign language ∉ (QString.number uavId).toList := by
    intro hmem
    rw [QString.toList_number] at hmem
    have hdigit := Nat.isDigit_of_mem_toDigits (by decide) (by decide) hmem
    cases language <;> exact absurd hdigit (by decide)
  rw [htext, Text.split_singleton, List.splitOn_append_cons_self_of_not_mem hfront,
    List.splitOn_eq_singleton hnumber]
  rfl

/-- The slot of an item acts on the enemy of the item. -/
theorem treeItemChangedSlot_itemText (language : Language) (m_id : Int) {enemyUavId : Nat}
    (h : enemyUavId < 2 ^ 31) (checked : Bool) :
    treeItemChangedSlot language m_id (itemText language enemyUavId) checked =
      some <$> if checked then check m_id enemyUavId else uncheck m_id enemyUavId := by
  rw [treeItemChangedSlot, getElem?_split_itemText]
  simp only [toInt_number h]
  cases checked <;> rfl

end BLAPerehvatDialog

end ArmOd
