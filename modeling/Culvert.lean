import Culvert.AhbSiphon
import Culvert.MmioCopy
import Culvert.Bridge.IlpcFlat
import Culvert.Bridge.P2aReset
import Culvert.Bridge.L2aOpens
import Culvert.Bridge.ProbeReady
import Culvert.Bridge.DevmemFlat
import Culvert.Bridge.DebugWrite
import Culvert.Bridge.DebugReadl
import Culvert.Bridge.DebugCalls
import Culvert.Bridge.DebugRetry
import Culvert.Bridge.PromptClosed
import Culvert.Bridge.PromptGets
import Culvert.Flash.Handshake
import Culvert.Flash.SmartWrite
import Culvert.Flash.EraseTiles
import Culvert.Flash.PageWrite
import Culvert.Flash.Ranges
import Culvert.Soc.XdmaEnforce
import Culvert.Soc.EnforceOrder
import Culvert.Soc.OtpStraps
import Culvert.Soc.OtpVerdict
import Culvert.Soc.OtpRestored
import Culvert.Soc.TraceRing
import Culvert.Soc.SfcAddressMode
import Culvert.Soc.SfcWriteProtect
import Culvert.Soc.StrapUpdates
import Culvert.Soc.ArmStrap
import Culvert.Soc.ClkRate
import Culvert.Soc.WdtReset
import Culvert.Cmd.ArmClock
import Culvert.Cmd.WholeImage
import Culvert.Cmd.OtpCell
import Culvert.Cmd.Ram
import Culvert.Cmd.Probe
import Culvert.Cmd.Replace
import Culvert.Cmd.SfcWrite
import Culvert.Soc.BridgeLinks
import Culvert.Uart.SuartShut
import Culvert.Uart.SuartProgress
import Culvert.Uart.SuartBaud
import Culvert.Hw.SioProbe
import Culvert.Bridge.DebugFlat
import Culvert.Bridge.SiphonBridges
import Culvert.Cmd.JtagServer
import Culvert.Cmd.JtagRoute
import Culvert.Cmd.CoprocessorRuns
import Culvert.Soc.UartMux
import Culvert.Cmd.SfcSessions
import Culvert.Cmd.Access
import Culvert.Cmd.AccessRuns
