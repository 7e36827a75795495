import IBoxClient.Lib.Machine
import IBoxClient.Lib.Cyclic
import IBoxClient.Lib.Delimited
import IBoxClient.Lib.Simulation
import IBoxClient.Lib.Rounds
import IBoxClient.Lib.Memory
import IBoxClient.Lib.Newest
import IBoxClient.Lib.Prog
import IBoxClient.Lib.Bytes
import IBoxClient.Lib.Levels
import IBoxClient.Lib.Patience
import IBoxClient.Uart3
import IBoxClient.LineFraming
import IBoxClient.NetFifo
import IBoxClient.MqttPacket
import IBoxClient.MqttSerialize
import IBoxClient.NetLink
import IBoxClient.MqttClient
import IBoxClient.MqttEffects
import IBoxClient.MqttKeepalive
import IBoxClient.MqttWait
import IBoxClient.MqttFraming
import IBoxClient.IBoxConfig
import IBoxClient.MainThread
import IBoxClient.MainRouting
import IBoxClient.MainSession
import IBoxClient.WifiFsm
import IBoxClient.WifiTx
import IBoxClient.WifiRecovery
import IBoxClient.WifiInbound
import IBoxClient.Rtc
import IBoxClient.WifiTrap
import IBoxClient.WifiLink
import IBoxClient.NetRx
import IBoxClient.WifiOnce
import IBoxClient.Uart3Irq
import IBoxClient.MqttReturns
import IBoxClient.MainTidy
import IBoxClient.MqttTable
import IBoxClient.MqttAcks
import IBoxClient.MqttHandshake
import IBoxClient.MqttQos2
import IBoxClient.Lib.Longest
import IBoxClient.MainCallbacks
import IBoxClient.Lib.Twin
import IBoxClient.Lib.Slots
import IBoxClient.ClockJump
import IBoxClient.MqttTimeouts
import IBoxClient.RtcCalendar
import IBoxClient.MqttTopics
import IBoxClient.GprsFsm
import IBoxClient.GprsTx
import IBoxClient.GprsInbound
import IBoxClient.FsmSilence
import IBoxClient.MqttBeside
import IBoxClient.ClockSet
import IBoxClient.Uart3Queue
import IBoxClient.Uart4
import IBoxClient.Uart1
import IBoxClient.NetFifoRead
import IBoxClient.RtcElapsed
import IBoxClient.MqttBounds
import IBoxClient.ModemLength
import IBoxClient.Ethernet
import IBoxClient.RemoteCommands
import IBoxClient.MqttSubscribe
import IBoxClient.Lib.Nearest
import IBoxClient.LibStdio
import IBoxClient.RtcWeek
import IBoxClient.EthernetMac
import IBoxClient.GprsImei
import IBoxClient.Lib.Endless
import IBoxClient.Lib.Serial
import IBoxClient.Lib.Table
import IBoxClient.MqttHandlers
import IBoxClient.MqttPacketIds
import IBoxClient.WifiAddress
import IBoxClient.WifiEscalation
import IBoxClient.Lib.Cursor
import IBoxClient.MqttReadnb
import IBoxClient.MqttServer
import IBoxClient.Dhcp
import IBoxClient.DhcpExchange
import IBoxClient.DhcpLease
import IBoxClient.DhcpRate
import IBoxClient.Dns
import IBoxClient.CjsonCallbacks
