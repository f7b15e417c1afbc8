import Otomai.Network.ServerFrames
import Otomai.Auth.RateLimit
import Otomai.Auth.Credentials
import Otomai.Auth.Ticket
import Otomai.Auth.Login
import Otomai.ProtocolGen.Totality
import Otomai.Protocol.FromRaw
import Otomai.Protocol.Types
import Otomai.World.Actors
import Otomai.World.Whispers
import Otomai.World.Creations
import Otomai.Ipc.Envelopes
import Otomai.World.MapCache
import Otomai.Npc.Dialogue
import Otomai.ProtocolGen.As3Layout
import Otomai.Combat.Casting
import Otomai.Combat.Marks
import Otomai.Combat.AutoPlay
import Otomai.Combat.Summons
import Otomai.Combat.Replica
import Otomai.Combat.TrapNetwork
import Otomai.Combat.Gravity
import Otomai.Combat.Chronicle
import Otomai.Combat.Told
import Otomai.Combat.MarkAges
import Otomai.Combat.Points
import Otomai.Handlers.Visibility
import Otomai.Handlers.Place
import Otomai.Handlers.Speed
import Otomai.Handlers.Transition
import Otomai.Handlers.Lifecycle
import Otomai.DataReader.D2iRoundTrip
import Otomai.DataReader.D2p
import Otomai.DataReader.Signed
import Otomai.DataReader.EditorRuns
import Otomai.Quests.Experience
import Otomai.Quests.Objectives
import Otomai.Quests.Flags
import Otomai.Common.FindPath
import Otomai.Common.CriterionErrors
import Otomai.Common.DlmFormat
import Otomai.Common.Dlm
import Otomai.Common.Lines
import Otomai.Common.SightWalk
import Otomai.GeneratorRsa.Aksf
import Otomai.GeneratorRsa.KeyAssets
import Otomai.DataReader.Malformed
import Otomai.DataReader.ImportDb
import Otomai.DataReader.Listing
import Otomai.Combat.TurnOrder
import Otomai.Protocol.ShowFighter
import Otomai.ProtocolGen.Abc
import Otomai.ProtocolGen.Extraction
import Otomai.ProtocolGen.TypeHierarchies
