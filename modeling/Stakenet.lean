import Stakenet.Foundation.Outcome
import Stakenet.Foundation.Execution
import Stakenet.Foundation.WordSet
import Stakenet.Foundation.Bytes
import Stakenet.Foundation.Ring
import Stakenet.Foundation.Packing
import Stakenet.Steward.Basic
import Stakenet.Steward.ScoreEncoding
import Stakenet.Steward.BitMask
import Stakenet.Steward.Parameters
import Stakenet.Steward.ValidatorList
import Stakenet.Steward.State
import Stakenet.Steward.DirectedStake
import Stakenet.Steward.Scoring
import Stakenet.Steward.Removal
import Stakenet.Steward.Delegation
import Stakenet.Steward.Rebalance
import Stakenet.Steward.DirectedDelegation
import Stakenet.Steward.InstantUnstake
import Stakenet.Steward.Crank
import Stakenet.Steward.Maintenance
import Stakenet.Steward.Passthrough
import Stakenet.Steward.System
import Stakenet.Steward.Transitions
import Stakenet.Steward.Steps
import Stakenet.Foundation.RowShift
import Stakenet.Steward.RemovalEffect
import Stakenet.Steward.RowDeletion
import Stakenet.Steward.RebalanceEffect
import Stakenet.Steward.UnstakeCaps
import Stakenet.Steward.ReserveSolvency
import Stakenet.Steward.ScoringEffect
import Stakenet.Steward.Phases
import Stakenet.Steward.Thresholds
import Stakenet.Steward.Pause
import Stakenet.Foundation.Ranking
import Stakenet.Steward.RankingEffect
import Stakenet.Steward.PoolRanking
import Stakenet.Steward.Shares
import Stakenet.Steward.DelegationChoice
import Stakenet.Steward.StakeDeposits
import Stakenet.Foundation.ProRata
import Stakenet.Steward.DirectedCalculation
import Stakenet.Steward.DirectedCall
import Stakenet.Steward.DirectedAdjustment
import Stakenet.Steward.DirectedMirror
import Stakenet.Steward.DirectedBudget
import Stakenet.Steward.DirectedShares
import Stakenet.Steward.UntrackedBalance
import Stakenet.Steward.InstantExclusion
import Stakenet.Steward.PoolMembership
import Stakenet.Steward.RemovalMarks
import Stakenet.Steward.RemovalOrder
import Stakenet.Steward.StateMigration
import Stakenet.Steward.DirectedStakeRealloc
import Stakenet.Foundation.Allocation
import Stakenet.Steward.StakeView
import Stakenet.Steward.WaterFilling
import Stakenet.Steward.DepositMeasure
import Stakenet.Steward.ReserveAllotment
import Stakenet.Foundation.Window
import Stakenet.Foundation.Bincode
import Stakenet.History.CircBuf
import Stakenet.History.Setters
import Stakenet.History.VoteState
import Stakenet.History.RingOrder
import Stakenet.History.RingInvariant
import Stakenet.History.CreditRecord
import Stakenet.History.GossipCopy
import Stakenet.History.GossipSignature
import Stakenet.History.VoteStateFormat
import Stakenet.Foundation.ListedRows
import Stakenet.Steward.Whitelist
import Stakenet.Steward.WhitelistSets
import Stakenet.History.RingInsertion
import Stakenet.History.ValidatorAge
import Stakenet.History.ClusterInfo
import Stakenet.Foundation.Tally
import Stakenet.Steward.DirectedStakeTicket
import Stakenet.Sdk.DirectedTargets
import Stakenet.Sdk.DirectedStakeMeta
import Stakenet.Foundation.Double
import Stakenet.History.Fields
import Stakenet.History.ClusterHistory
import Stakenet.Steward.ValidatorScore
import Stakenet.Steward.ScoringWindows
import Stakenet.Steward.FilterAgreement
import Stakenet.Steward.MaskSets
import Stakenet.Foundation.Standings
import Stakenet.Steward.SortedInsertion
import Stakenet.Foundation.Flow
import Stakenet.Foundation.GapClosing
import Stakenet.Steward.RemovalCounts
import Stakenet.Keeper.Basic
import Stakenet.Keeper.StakeUpload
import Stakenet.Keeper.RemovalLoops
import Stakenet.Keeper.RemovalProgress
import Stakenet.Foundation.Codec
import Stakenet.History.CrdsFormat
import Stakenet.History.Program
import Stakenet.History.Registration
import Stakenet.History.ProgramWrites
import Stakenet.History.ProgramHistories
import Stakenet.Keeper.GossipUpload
import Stakenet.Foundation.Batches
import Stakenet.Keeper.Submission
import Stakenet.Keeper.SubmissionRecord
import Stakenet.Keeper.SubmissionEnd
import Stakenet.Keeper.InstructionPacking
import Stakenet.Foundation.Rounds
import Stakenet.Keeper.CrankPass
import Stakenet.Keeper.Cycle
import Stakenet.Foundation.KeyedRing
import Stakenet.History.ClusterProgram
import Stakenet.History.ClusterRecord
import Stakenet.History.ClusterRuns
import Stakenet.Foundation.Alignment
import Stakenet.Runtime.Allocator
