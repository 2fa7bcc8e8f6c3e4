import ShipServer.LabelledRuns
import ShipServer.BoundedLists
import ShipServer.Items
import ShipServer.Versions
import ShipServer.BlueBurstGame
import ShipServer.BlueBurstMoves
import ShipServer.BlueBurstConservation
import ShipServer.BlueBurstItemIds
import ShipServer.BlueBurstMeseta
import ShipServer.LobbyRooms
import ShipServer.LobbyState
import ShipServer.LobbyFunctions
import ShipServer.DeferredPackets
import ShipServer.LobbyRefinement
import ShipServer.BlockPackets
import ShipServer.BlockEffects
import ShipServer.BlockInvariants
import ShipServer.LobbyMembership
import ShipServer.PasswordEntry
import ShipServer.BurstingFlag
import ShipServer.PacketQueue
import ShipServer.BurstReplay
import ShipServer.IncrementalParsing
import ShipServer.ByteStreams
import ShipServer.PacketFraming
import ShipServer.ClientProgress
import ShipServer.SendBuffer
import ShipServer.LeaderElection
import ShipServer.BlueBurstRefusals
import ShipServer.RefusedJoins
import ShipServer.GameSelection
import ShipServer.GameRestrictions
import ShipServer.PlayerEntries
import ShipServer.QuestLists
import ShipServer.QuestOffers
import ShipServer.QuestReload
import ShipServer.MutedSenders
import ShipServer.WordSelects
import ShipServer.BufferWrites
import ShipServer.ListPackets
import ShipServer.StaleBytes
import ShipServer.ListSizes
import ShipServer.ShipMenus
import ShipServer.LimitedScans
import ShipServer.ChoiceSearch
import ShipServer.TextPackets
import ShipServer.TextBuffers
import ShipServer.TracedReads
import ShipServer.QuestFunctions
import ShipServer.QuestRegisters
import ShipServer.QuestStack
import ShipServer.QuestReplies
import ShipServer.QuestSetup
import ShipServer.WriteLogs
import ShipServer.SyncedRegisters
import ShipServer.DropItems
import ShipServer.DropGenerators
import ShipServer.MapDrops
import ShipServer.CoupledRuns
import ShipServer.DropAgreement
import ShipServer.LobbyEntry
import ShipServer.LoginHandlers
import ShipServer.LuaApi
import ShipServer.BanEnforcement
import ShipServer.ShipgateFraming
import ShipServer.LoggedLoops
import ShipServer.ShipgatePayloads
import ShipServer.TrackedInventory
import ShipServer.LegitGames
import ShipServer.LimitsOwnership
import ShipServer.SortedCodes
import ShipServer.ShipList
import ShipServer.NumberText
import ShipServer.BanFile
import ShipServer.ScriptEvents
import ShipServer.ScriptFunctions
import ShipServer.SemiRares
import ShipServer.Teams
import ShipServer.QuestLoad
import ShipServer.QuestObservers
import ShipServer.QuestSelection
import ShipServer.MonsterHits
import ShipServer.KillReports
import ShipServer.RecordStreams
import ShipServer.QuestMapCache
import ShipServer.InterleavedChunks
import ShipServer.QuestTransfer
import ShipServer.LobbyIds
import ShipServer.AuthorityRuns
import ShipServer.GraveTranslation
import ShipServer.CommandContainment
import ShipServer.InventorySort
import ShipServer.EquippedUnits
import ShipServer.BankStacks
import ShipServer.InventoryAmounts
import ShipServer.LevelUps
import ShipServer.BanLifting
import ShipServer.WeightedChoice
import ShipServer.WeaponRolls
import ShipServer.WeaponChoice
import ShipServer.TechniqueDisks
import ShipServer.LevelTables
import ShipServer.UnitTables
import ShipServer.PmtLookups
import ShipServer.PartialOrbits
import ShipServer.QuestSections
import ShipServer.MapExpansion
import ShipServer.PatternOccurrences
import ShipServer.WordCheck
import ShipServer.DropPolicies
import ShipServer.LoadedMaps
import ShipServer.GameMaps
import ShipServer.FieldReads
import ShipServer.QstFiles
import ShipServer.QstDecoding
import ShipServer.WordCensor
import ShipServer.CensorAgreement
import ShipServer.WordMemory
import ShipServer.WordReads
import ShipServer.WordSafety
import ShipServer.WordFiles
import ShipServer.FueledLoops
import ShipServer.RawStrings
import ShipServer.EscapeStripping
import ShipServer.ChallengeLevels
import ShipServer.PlayerLists
import ShipServer.LockTraces
import ShipServer.LockBalance
import ShipServer.ConnectionLoops
import ShipServer.ShipSchedule
import ShipServer.LobbyPositions
import ShipServer.ScriptChunks
import ShipServer.FileReads
import ShipServer.RareTables
import ShipServer.InfoPages
import ShipServer.LockedFiles
import ShipServer.PidFiles
import ShipServer.MessageCascades
import ShipServer.MailAutoreplies
import ShipServer.MapSets
import ShipServer.BoxBreaks
import ShipServer.KeyedStores
import ShipServer.QuestCaches
