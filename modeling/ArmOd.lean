import ArmOd.Base.Run
import ArmOd.Base.While
import ArmOd.Base.Blocks
import ArmOd.Base.Program
import ArmOd.Base.Table
import ArmOd.Base.Transactions
import ArmOd.Base.BiMap
import ArmOd.Base.Files
import ArmOd.Base.Crc
import ArmOd.Common.CRCs
import ArmOd.Common.BiMapObjects
import ArmOd.Rpc.RPCServer
import ArmOd.Rpc.RpcRoutedServer
import ArmOd.Rpc.RpcRoutedClient
import ArmOd.DbBla.Defines
import ArmOd.DbBla.Integrity
import ArmOd.DbBla.Histories
import ArmOd.DbBla.Identity
import ArmOd.DbBla.Separation
import ArmOd.DbBla.EnemyBatch
import ArmOd.DbBla.InfoColumns
import ArmOd.DbBla.LiveUavs
import ArmOd.DbBla.LifeTimers
import ArmOd.DbBla.Discipline
import ArmOd.DbBla.LockOrder
import ArmOd.DbBla.HistoryCalls
import ArmOd.DbBla.HistoryNotifications
import ArmOd.DbBla.HistoryRuns
import ArmOd.Tree.UavItems
import ArmOd.Tree.UavStates
import ArmOd.Tree.ModelIndex
import ArmOd.Info.Settings
import ArmOd.Settings.SettingsNode
import ArmOd.Settings.StationProperties
import ArmOd.Settings.PropertyValues
import ArmOd.Adsb.PacketBuffer
import ArmOd.Adsb.PlanesClient
import ArmOd.Map.AisFeatures
import ArmOd.Map.AdsbFeatures
import ArmOd.Map.BplaTracks
import ArmOd.Map.Hyperboles
import ArmOd.Map.Interceptions
import ArmOd.Map.LiveFeatures
import ArmOd.Map.AtlantIds
import ArmOd.Map.NiippFeature
import ArmOd.Map.PelengatorFeature
import ArmOd.Map.CheckPoints
import ArmOd.Json.RoundTrip
import ArmOd.KtrSimulator.Frames
import ArmOd.KtrSimulator.CommandStream
import ArmOd.Niipp.Target
import ArmOd.Niipp.PowerIndex
import ArmOd.Tabs.TabManager
import ArmOd.Tcp.KtrThread
import ArmOd.Tcp.KtrConnections
import ArmOd.Tcp.KtrFraming
import ArmOd.Tcp.KtrText
import ArmOd.Tcp.TcpManager
import ArmOd.Tcp.DrainLoop
import ArmOd.Tcp.AISRecords
import ArmOd.Tcp.TcpAISZoneManager
import ArmOd.Tcp.NIIPPCommand
import ArmOd.Tcp.BaseTcpClient
import ArmOd.Uav.Interception
import ArmOd.Uav.InterceptionAxes
import ArmOd.Log.Failures
