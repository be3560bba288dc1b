import ArmOd.Base.Run
import ArmOd.DbBla.DbUavManager

/-!
# UavHistory

The replay of recorded positions. A query over a period gives the rows in the order of their
date-times; a timer takes the rows of one second at a time and tells the listeners what happened in
it, and the same rows can be exported to a sheet instead. The state is the object's own fields with
what went out of it: notifications, statuses, the signals of the command handlers and the exported
rows. `records` holds what `m_query.record()` was at every row a replay step was built from.

What the database answers is an argument of the start. A record read where the query is on no row is
empty, and every value converted from it is a zero, an empty text or a null date-time.
-/

namespace ArmOd

inductive HistoryStatus where
  | NotReady
  | Ready
  | Playing
  | Loading
  | Paused
  deriving DecidableEq, Repr

inductive HistorySignal where
  | stopped
  | startFinished
  | stopFinished
  deriving DecidableEq, Repr

/-- `QDateTime()`: its day number is the one that stands for no day. -/
def QDateTime.null : QDateTime := ⟨-2 ^ 63, 0⟩

/-- A row of the prepared query, by the types its values are converted to. -/
structure HistoryRow where
  id : Int := 0
  uavIdReal : Int := 0
  latitude : Double := 0
  longitude : Double := 0
  altitude : Double := 0
  latitudeStdDev : Double := 0
  longitudeStdDev : Double := 0
  speed : Double := 0
  yaw : Double := 0
  restTime : QTime := 0
  statusTypeId : Int := 0
  datetime : QDateTime := .null
  sourceReal : Int := 0
  code : String := ""
  deriving DecidableEq, Repr

namespace HistoryRow

def info (row : HistoryRow) : UavInfo where
  id := row.id
  uavId := uint row.uavIdReal
  lat := row.latitude
  lon := row.longitude
  alt := row.altitude
  latStddev := row.latitudeStdDev
  lonStddev := row.longitudeStdDev
  speed := row.speed
  yaw := row.yaw
  restTime := row.restTime
  statusId := uint row.statusTypeId
  dateTime := row.datetime
  source := uint row.sourceReal
  historical := true

/-- The second a row belongs to. -/
def time (row : HistoryRow) : QDateTime := row.datetime.dropMsecs

end HistoryRow

/-- `UavModel::getExtendedId`. -/
def getExtendedId (uav : UavInfo) : String :=
  let source := if uav.source = UAV_SLICES_SOURCE then UAV_AUTOPILOT_SOURCE else uav.source
  QString.number uav.uavId ++ "_" ++ QString.number source ++ "_" ++
    QString.number (if uav.historical then 1 else 0)

/-- Where a query is: the row it is on, and the rows after that. -/
structure QSqlQuery where
  current : Option HistoryRow := none
  rest : List HistoryRow := []
  deriving DecidableEq, Repr

namespace QSqlQuery

def record (query : QSqlQuery) : HistoryRow := query.current.getD {}

/-- Whether the query is on a row. -/
def isValid (query : QSqlQuery) : Bool := query.current.isSome

end QSqlQuery

/-- What executing the query comes to. -/
inductive QueryResult where
  | error
  | rows (rows : List HistoryRow)
  deriving DecidableEq, Repr

structure UavHistory where
  m_timer : Bool := false
  databaseValid : Bool
  databaseOpen : Bool
  m_query : QSqlQuery := {}
  m_uavLastDate : QMap Nat QDateTime := ∅
  m_uavRoles : QMap Nat String := ∅
  m_knownUavsList : QMap Nat Uav := ∅
  m_startResult : Bool
  m_isPaused : Bool := false
  m_lifeTime : Int := 30000
  m_receiversList : List Listener
  sent : List (Listener × UavNotification) := []
  statuses : List (Listener × HistoryStatus) := []
  emitted : List HistorySignal := []
  sheet : List UavInfo := []
  records : List (Option HistoryRow) := []

namespace UavHistory

def getStatus (h : UavHistory) : HistoryStatus :=
  if !h.databaseOpen then .NotReady
  else if h.m_timer then .Playing
  else if h.m_isPaused then .Paused
  else .Ready

def sendStatusOf (status : HistoryStatus) (h : UavHistory) : UavHistory :=
  { h with statuses := h.statuses ++ broadcast h.m_receiversList status }

def sendStatus (h : UavHistory) : UavHistory := h.sendStatusOf h.getStatus

def notify (n : UavNotification) (h : UavHistory) : UavHistory :=
  { h with sent := h.sent ++ broadcast h.m_receiversList n }

def emit (signal : HistorySignal) (h : UavHistory) : UavHistory :=
  { h with emitted := h.emitted ++ [signal] }

/-! ### Stopping -/

def removed (h : UavHistory) (id : Nat) : UavNotification :=
  .onUavRemoved { uavId := id, historical := true } (h.m_uavRoles.getD id "")

def stopInternal (h : UavHistory) : UavHistory :=
  let h := h.m_knownUavsList.keys.foldl (fun h id => h.notify (h.removed id)) h
  let h := { h with
    m_timer := false, m_query := {}, m_knownUavsList := ∅, m_uavRoles := ∅, m_uavLastDate := ∅
    m_isPaused := false }
  h.sendStatus.emit .stopFinished

/-- `stop` called in the object's own thread, where the signal is a call of the slot. -/
def stop (h : UavHistory) : UavHistory :=
  if h.getStatus = .Ready then h else (h.emit .stopped).stopInternal

/-! ### One second of the replay -/

/-- What is kept of a row besides its information: the role, the last date, and the record read. -/
def remember (record : Option HistoryRow) (h : UavHistory) : UavHistory :=
  let row := record.getD {}
  { h with
    m_uavRoles := h.m_uavRoles.insert row.info.uavId row.code
    m_uavLastDate := h.m_uavLastDate.insert row.info.uavId row.info.dateTime
    records := h.records ++ [record] }

def collectInfo (infoCollection : QMap String UavInfo) (info : UavInfo) : QMap String UavInfo :=
  infoCollection.insert (getExtendedId info) info

/-- The `do` loop: the rows of the second `time`, from the one the query is on. -/
def collect (time : QDateTime) (record : Option HistoryRow) :
    List HistoryRow → UavHistory → QMap String UavInfo → UavHistory × QMap String UavInfo
  | [], h, infoCollection =>
      -- there is no next row, and the loop is left after the replay is stopped
      ({ h.remember record with m_query := {} }.stop,
        collectInfo infoCollection (record.getD {}).info)
  | next :: rest, h, infoCollection =>
      let h := { h.remember record with m_query := ⟨some next, rest⟩ }
      let infoCollection := collectInfo infoCollection (record.getD {}).info
      if next.time = time then collect time (some next) rest h infoCollection
        else (h, infoCollection)

def announce (info : UavInfo) (h : UavHistory) : UavHistory :=
  let role := h.m_uavRoles.getD info.uavId ""
  let uav : Uav := { uavId := info.uavId, name := QString.number info.uavId ++ "-H", historical := true }
  let h := if h.m_knownUavsList.contains uav.uavId then h
    else { h with m_knownUavsList := h.m_knownUavsList.insert uav.uavId uav }.notify
    (.onUavAdded uav role)
  h.notify (.onUavInfoChanged { info with uavId := uav.uavId } role [] [])

/-- Whether nothing was heard of a UAV for its life time. -/
def outdated (time : QDateTime) (h : UavHistory) (id : Nat) : Bool :=
  decide (h.m_lifeTime ≤ (h.m_uavLastDate.getD id .null).msecsTo time)

def removeOutdated (time : QDateTime) (h : UavHistory) (id : Nat) : UavHistory :=
  if h.outdated time id then
    { h.notify (h.removed id) with
      m_knownUavsList := h.m_knownUavsList.erase id
      m_uavRoles := h.m_uavRoles.erase id
      m_uavLastDate := h.m_uavLastDate.erase id }
  else h

def updateHistoryState (h : UavHistory) : UavHistory :=
  let time := h.m_query.record.time
  let (h, infoCollection) := collect time h.m_query.current h.m_query.rest h ∅
  let h := (QMap.values infoCollection).foldl (fun h info => h.announce info) h
  h.m_uavLastDate.keys.foldl (removeOutdated time) h

/-! ### The commands -/

/-- The `do` loop of the export: all the rows, under the texts of their numbers. -/
def exportRows (record : HistoryRow) :
    List HistoryRow → Nat → UavHistory → QMap String UavInfo → UavHistory × QMap String UavInfo
  | rest, cnt, h, infoCollection =>
      let h := { h with
        m_uavRoles := h.m_uavRoles.insert record.info.uavId record.code
        m_uavLastDate := h.m_uavLastDate.insert record.info.uavId record.info.dateTime }
      let infoCollection := infoCollection.insert (QString.number cnt) record.info
      match rest with
      | [] => ({ h with m_query := {} }, infoCollection)
      | next :: rest => exportRows next rest (cnt + 1) h infoCollection

def xlsExport (h : UavHistory) : UavHistory :=
  let (h, infoCollection) := exportRows h.m_query.record h.m_query.rest 0 h ∅
  { h with sheet := h.sheet ++ QMap.values infoCollection }

def startInternal (result : QueryResult) (mode : Int) (h : UavHistory) : UavHistory :=
  let h := h.stop
  match result with
  | .error | .rows [] => { h with m_query := {}, m_startResult := false }.emit .startFinished
  | .rows (row :: rest) =>
      let h := { h with m_query := ⟨some row, rest⟩ }
      if mode = 0 then
        { h.updateHistoryState with m_timer := true, m_startResult := true }.emit .startFinished
      else if mode = 1 then h.xlsExport.emit .startFinished
      else h

/-- `start` called in the object's own thread. -/
def start (result : QueryResult) (mode : Int) (h : UavHistory) : Bool × UavHistory :=
  if !h.databaseValid then (false, h)
  else
    let h := ((h.sendStatusOf .Loading).startInternal result mode).sendStatus
    (h.m_startResult, h)

def pauseInternal (h : UavHistory) : UavHistory :=
  if h.m_isPaused then h else { h with m_timer := false, m_isPaused := true }.sendStatus

def resumeInternal (h : UavHistory) : UavHistory :=
  if !h.m_isPaused then h else { h with m_timer := true, m_isPaused := false }.sendStatus

/-- What the object's thread handles: calls made in it, commands queued from other threads, and the
timer. A call of `pause` or `resume` is its queued command. -/
inductive HistoryOp where
  | start (result : QueryResult) (mode : Int)
  | stop
  | started (result : QueryResult) (mode : Int)
  | stopped
  | paused
  | resumed
  | timeout
  deriving DecidableEq, Repr

def step (h : UavHistory) : HistoryOp → UavHistory
  | .start result mode => (h.start result mode).2
  | .stop => h.stop
  | .started result mode => h.startInternal result mode
  | .stopped => h.stopInternal
  | .paused => h.pauseInternal
  | .resumed => h.resumeInternal
  | .timeout => if h.m_timer then h.updateHistoryState else h

/-- The object after its construction, with its listeners. -/
def constructed (databaseValid databaseOpen startResult : Bool) (lifeTime : Int)
    (receivers : List Listener) : UavHistory where
  databaseValid := databaseValid
  databaseOpen := databaseOpen
  m_startResult := startResult
  m_lifeTime := lifeTime
  m_receiversList := receivers

end UavHistory

end ArmOd
