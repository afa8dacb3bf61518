import GameServer.Common.Memory
import GameServer.Common.Sine
import GameServer.Common.Md5
import GameServer.Common.CString
import GameServer.Common.Wire
import GameServer.Common.Run
import GameServer.Common.Sort
import GameServer.Common.SidePot
import GameServer.Common.Cards
import GameServer.Common.Circle
import GameServer.Common.Sql
import GameServer.Common.Calendar
import GameServer.Common.Pool
import GameServer.Common.Trump
import GameServer.Common.Blocks
import GameServer.Common.Links
import GameServer.Common.Spread
import GameServer.ServiceCore.Model.DataQueue
import GameServer.ServiceCore.DataQueue
import GameServer.ServiceCore.IDPool
import GameServer.ServiceCore.Model.Encrypt
import GameServer.ServiceCore.Encrypt
import GameServer.ServiceCore.Model.MD5
import GameServer.ServiceCore.MD5
import GameServer.ServiceCore.Model.Cipher
import GameServer.ServiceCore.Cipher
import GameServer.ServiceCore.Model.AllocationID
import GameServer.KernelEngine.Model.WebSocket
import GameServer.KernelEngine.WebSocket
import GameServer.KernelEngine.ServerFrame
import GameServer.KernelEngine.Model.TCPSocketService
import GameServer.KernelEngine.TCPSocketService
import GameServer.KernelEngine.Model.TimerEngine
import GameServer.KernelEngine.TimerEngine
import GameServer.KernelEngine.Model.SocketItem
import GameServer.KernelEngine.Receive
import GameServer.KernelEngine.Model.QueueService
import GameServer.KernelEngine.QueueService
import GameServer.KernelEngine.Model.Engine
import GameServer.KernelEngine.SocketItem
import GameServer.KernelEngine.Lifecycle
import GameServer.KernelEngine.SocketID
import GameServer.KernelEngine.Model.NetworkEvent
import GameServer.KernelEngine.NetworkEvent
import GameServer.ServiceUnits.Model.DBCorrespondManager
import GameServer.ServiceUnits.DBCorrespondManager
import GameServer.GameService.Model.ServerUser
import GameServer.GameService.ServerUser
import GameServer.GameService.Model.TableFrame
import GameServer.GameService.TableMoves
import GameServer.GameService.TableSteps
import GameServer.GameService.Seats
import GameServer.GameService.Model.DismissGame
import GameServer.GameService.TableFlags
import GameServer.GameService.Flags
import GameServer.GameService.Frozen
import GameServer.MatchService.Model.ImmediateMatch
import GameServer.MatchService.SignUp
import GameServer.MatchService.Model.Schedule
import GameServer.MatchService.Schedule
import GameServer.MatchService.Model.Distribute
import GameServer.MatchService.Distribute
import GameServer.MatchService.Model.Seating
import GameServer.MatchService.Seating
import GameServer.MatchService.Selection
import GameServer.MatchService.Ranking
import GameServer.MatchService.Resources
import GameServer.MatchService.Membership
import GameServer.TreasureDB.Model.BankService
import GameServer.TreasureDB.BankService
import GameServer.TreasureDB.Model.RoomLogon
import GameServer.TreasureDB.ScoreLock
import GameServer.TreasureDB.Model.Shop
import GameServer.TreasureDB.Shop
import GameServer.TreasureDB.Model.Membership
import GameServer.TreasureDB.Membership
import GameServer.AttemperEngine.Model.Insure
import GameServer.AttemperEngine.Insure
import GameServer.AttemperEngine.Model.TaskProgress
import GameServer.AttemperEngine.TaskProgress
import GameServer.AttemperEngine.Model.Distribute
import GameServer.AttemperEngine.Selection
import GameServer.AttemperEngine.Model.Nodes
import GameServer.AttemperEngine.Nodes
import GameServer.AttemperEngine.Queue
import GameServer.AttemperEngine.Distribute
import GameServer.CorrespondServer.Model.GlobalInfoManager
import GameServer.CorrespondServer.Directory
import GameServer.CorrespondServer.Model.AttemperEngineSink
import GameServer.CorrespondServer.Rooms
import GameServer.CorrespondServer.Registration
import GameServer.CorrespondServer.Model.ServerListManager
import GameServer.CorrespondServer.Replication
import GameServer.PrivateService.Model.PrivateTableInfo
import GameServer.PrivateService.Model.PrivateGame
import GameServer.PrivateService.Seats
import GameServer.PrivateService.Tables
import GameServer.PrivateService.Independence
import GameServer.PrivateService.Registry
import GameServer.PrivateService.Rooms
import GameServer.PrivateService.Cost
import GameServer.PrivateService.Dismissal
import GameServer.TexasHoldem.Model.GameLogic
import GameServer.TexasHoldem.GameLogic
import GameServer.TexasHoldem.PokerOrder
import GameServer.TexasHoldem.Model.Payout
import GameServer.TexasHoldem.Payout
import GameServer.TexasHoldem.SidePots
import GameServer.TexasHoldem.Model.TableFrameSink
import GameServer.TexasHoldem.Table
import GameServer.TexasHoldem.Chips
import GameServer.TexasHoldem.Betting
import GameServer.TexasHoldem.Turns
import GameServer.TexasHoldem.Pots
import GameServer.TexasHoldem.Settlement
import GameServer.DouDizhu.Model.GameLogic
import GameServer.DouDizhu.Model.TableFrameSink
import GameServer.DouDizhu.Cards
import GameServer.DouDizhu.Beating
import GameServer.DouDizhu.Model.Indices
import GameServer.DouDizhu.Indices
import GameServer.DouDizhu.Model.Settlement
import GameServer.DouDizhu.Settlement
import GameServer.DouDizhu.Classes
import GameServer.GuanDan.Model.GameLogic
import GameServer.GuanDan.Model.TableFrameSink
import GameServer.GuanDan.Tribute
import GameServer.GuanDan.Turns
import GameServer.GuanDan.Stages
import GameServer.GuanDan.Rounds
import GameServer.GuanDan.Cards
import GameServer.GuanDan.Beating
import GameServer.GuanDan.Model.QuitRequest
import GameServer.GuanDan.Arrays
import GameServer.GuanDan.Model.QuitLog
import GameServer.GuanDan.Quitting
import GameServer.GuanDan.Model.Settlement
import GameServer.GuanDan.Settlement
import GameServer.Ox.Model.GameLogic
import GameServer.Ox.GameLogic
import GameServer.Ox.Model.TableFrameSink
import GameServer.Ox.Stages
import GameServer.Ox.Banker
import GameServer.Ox.Timer
import GameServer.Ox.Hands
import GameServer.Ox.Progress
import GameServer.Ox.Shortfall
import GameServer.GuanDan.Shapes
import GameServer.GuanDan.Wild
import GameServer.GuanDan.Classes
import GameServer.GuanDan.Misread
import GameServer.OxBattle.Model.GameLogic
import GameServer.OxBattle.GameLogic
import GameServer.OxBattle.Model.TableFrameSink
import GameServer.OxBattle.Banker
import GameServer.OxBattle.Stakes
import GameServer.OxBattle.Settlement
import GameServer.OxBattle.Queue
import GameServer.OxBattle.Storage
import GameServer.OxBattle.Picks
import GameServer.OxBattle.Rules
import GameServer.OxBattle.Buffers
import GameServer.NanjingMahjong.Model.Messages
import GameServer.NanjingMahjong.Model.TableFrameSink
import GameServer.NanjingMahjong.Secrecy
import GameServer.GlobalDefine.Model.PacketAide
import GameServer.GlobalDefine.Model.DataStream
import GameServer.GlobalDefine.PacketAide
import GameServer.GlobalDefine.DataStream
import GameServer.Dealing.Model.RandCardList
import GameServer.Dealing.RandCardList
