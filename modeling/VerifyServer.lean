import VerifyServer.Reasoning.Bytes
import VerifyServer.Reasoning.Run
import VerifyServer.Reasoning.Machine
import VerifyServer.Reasoning.JavaString
import VerifyServer.Reasoning.Chain
import VerifyServer.Reasoning.Places
import VerifyServer.Reasoning.Aes
import VerifyServer.Reasoning.Utf8
import VerifyServer.Reasoning.Md5
import VerifyServer.Reasoning.Regex
import VerifyServer.Reasoning.Sql
import VerifyServer.Reasoning.Region
import VerifyServer.Reasoning.CString
import VerifyServer.Reasoning.Fuel
import VerifyServer.Reasoning.DoublyLinked
import VerifyServer.Common.UseCount
import VerifyServer.Common.Assignment
import VerifyServer.Common.CreateDirectoryMulti
import VerifyServer.IOCompletePort.MemAlloctor
import VerifyServer.IOCompletePort.MemSizes
import VerifyServer.IOCompletePort.IOCompletePort
import VerifyServer.Socket.Frame
import VerifyServer.Socket.Encoders
import VerifyServer.Socket.SaveData
import VerifyServer.Socket.Reassembly
import VerifyServer.Socket.Budget
import VerifyServer.Socket.SaveFuel
import VerifyServer.Socket.Buffers
import VerifyServer.Socket.TcpServer
import VerifyServer.Socket.Packets
import VerifyServer.Socket.Wellformed
import VerifyServer.Socket.Segmentation
import VerifyServer.Socket.Acceptance
import VerifyServer.Socket.SendBuffers
import VerifyServer.Socket.UdpSocket
import VerifyServer.Socket.InUse
import VerifyServer.Socket.Reuse
import VerifyServer.Socket.Noninterference
import VerifyServer.Socket.Steps
import VerifyServer.Socket.AcceptBudget
import VerifyServer.Socket.ConnIds
import VerifyServer.Socket.SocketPool
import VerifyServer.Socket.CleanUp
import VerifyServer.Socket.Receives
import VerifyServer.Socket.Registered
import VerifyServer.Socket.IoContexts
import VerifyServer.Socket.Shutdown
import VerifyServer.Socket.Startup
import VerifyServer.Socket.Buffer
import VerifyServer.Socket.Scan
import VerifyServer.DataBase.SqlManager
import VerifyServer.DataBase.SqlOrder
import VerifyServer.DataBase.SqlSignal
import VerifyServer.DataBase.SqlNodes
import VerifyServer.DataBase.Sqlite3Proxy
import VerifyServer.Thread.WakeThread
import VerifyServer.Thread.Spin
import VerifyServer.Thread.Restart
import VerifyServer.Protocol.CJson
import VerifyServer.Protocol.Requests
import VerifyServer.Recevier.ThreadSocketRecevier
import VerifyServer.Recevier.WideText
import VerifyServer.Client.NetSocketData
import VerifyServer.Client.NetDataParse
import VerifyServer.Client.Responses
import VerifyServer.Client.Rejected
import VerifyServer.Client.Dispatch
import VerifyServer.Client.JsonEncryptPack
import VerifyServer.Client.JsonDecryptPack
import VerifyServer.Client.KeyRoundTrip
import VerifyServer.Client.Unframed
import VerifyServer.Client.OnlineSession
import VerifyServer.Client.TcpStreamPack
import VerifyServer.Client.StreamCut
import VerifyServer.Client.SinglePack
import VerifyServer.Client.RoundTrip
import VerifyServer.Client.StreamReads
import VerifyServer.Client.StreamRounds
import VerifyServer.Client.StreamSafety
import VerifyServer.Client.ListenerChain
import VerifyServer.Client.ListenerLists
import VerifyServer.Client.ResendDoOperator
import VerifyServer.Client.ResendSends
import VerifyServer.Client.Md5Unit
import VerifyServer.Client.MyLoginPreferences
import VerifyServer.Client.ClientManager
import VerifyServer.Client.MyBaseDataProxy
import VerifyServer.Client.SelectParts
import VerifyServer.Client.SelectLayout
import VerifyServer.Client.DeleteParts
import VerifyServer.Client.OnlineUserSync
import VerifyServer.Client.OfflineClientUser
import VerifyServer.Client.CardTexts
import VerifyServer.Client.OfflineRuns
import VerifyServer.Client.UdpClient
import VerifyServer.Reasoning.Block
import VerifyServer.Reasoning.Decimal
import VerifyServer.Protocol.JsonText
import VerifyServer.Protocol.JsonGrammar
import VerifyServer.Protocol.JsonPrint
import VerifyServer.Protocol.JsonSafety
import VerifyServer.Protocol.JsonStrings
import VerifyServer.Protocol.JsonBuffered
import VerifyServer.Protocol.JsonMinify
import VerifyServer.Protocol.SignupParse
