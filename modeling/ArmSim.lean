import ArmSim.Trace
import ArmSim.Step
import ArmSim.Conditions
import ArmSim.Unimplemented
import ArmSim.Handlers
import ArmSim.Transfers
import ArmSim.Multiple
import ArmSim.Body
import ArmSim.Isolation
import ArmSim.FaultCodes
import ArmSim.SpsrAccess
import ArmSim.Compare
import ArmSim.Interrupt
import ArmSim.PushPop
import ArmSim.Lib.CellStore
import ArmSim.RegisterBanks
import ArmSim.Lib.LongestMatch
import ArmSim.Scanner
import ArmSim.MemoryArray
import ArmSim.MemoryBounds
import ArmSim.Carry
import ArmSim.Overflow
import ArmSim.Lib.SortedTable
import ArmSim.Breakpoints
import ArmSim.Lib.TextBuffer
import ArmSim.HexText
import ArmSim.GdbProtocol
import ArmSim.GdbReply
import ArmSim.PacketAnalysis
import ArmSim.Discipline
import ArmSim.Continue
import ArmSim.RegisterImage
import ArmSim.Download
import ArmSim.DataResults
import ArmSim.SingleTransfer
import ArmSim.TransferEffects
import ArmSim.Miscellaneous
import ArmSim.MiscellaneousFaults
import ArmSim.BlockTransfer
import ArmSim.BankedTransfer
import ArmSim.InterruptEntry
import ArmSim.Branch
import ArmSim.Multiply
import ArmSim.BankSelection
import ArmSim.RegisterAccess
import ArmSim.Lib.TextReader
import ArmSim.ReadReply
import ArmSim.Readers
import ArmSim.Containment
import ArmSim.PrintString
import ArmSim.SetAgain
import ArmSim.Lib.Recorded
import ArmSim.ShiftCounts
import ArmSim.Lib.Simulation
import ArmSim.Architecture
import ArmSim.Supported
import ArmSim.Represents
import ArmSim.DataRefinement
import ArmSim.TransferRefinement
import ArmSim.BlockRefinement
import ArmSim.Refinement
import ArmSim.Lib.Agreement
import ArmSim.Target
import ArmSim.Session
import ArmSim.Updates
import ArmSim.SessionMachine
import ArmSim.SessionBreakpoints
import ArmSim.Requests
import ArmSim.Stepping
import ArmSim.Hosts
import ArmSim.SessionHosts
import ArmSim.Uninitialised
import ArmSim.Privilege
import ArmSim.Debug
import ArmSim.Options
import ArmSim.Tracing
import ArmSim.SendIrq
