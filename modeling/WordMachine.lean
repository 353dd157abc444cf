import WordMachine.Inspect
import WordMachine.Main
import WordMachine.Snapshot.Packed
import WordMachine.Proofs.Session.Split
import WordMachine.Proofs.Packed
import WordMachine.Proofs.Snapshot.Packed
import WordMachine.Proofs.Json.Torn
import WordMachine.Proofs.Snapshot.Torn
import WordMachine.Proofs.Snapshot.Depth
import WordMachine.Proofs.Machine.Protected
import WordMachine.Proofs.Dictionary.Refinement
import WordMachine.Proofs.Machine.History
import WordMachine.Proofs.Machine.Clone
import WordMachine.Proofs.Source.Load
import WordMachine.Proofs.Machine.Nesting
import WordMachine.Proofs.Source.Joined
import WordMachine.Proofs.Machine.HostFunctions
import WordMachine.Proofs.Machine.Unobserved
import WordMachine.Proofs.Source.PlainText
import WordMachine.Proofs.Machine.Capacity
import WordMachine.Proofs.Machine.Unfolding
import WordMachine.Proofs.Machine.LibraryWords
import WordMachine.Proofs.Machine.CallGraph
import WordMachine.Proofs.Machine.Frame
import WordMachine.Proofs.Machine.AtRest
import WordMachine.Proofs.Machine.HostPrograms
import WordMachine.Proofs.Machine.Journal
import WordMachine.Proofs.Machine.TraceTail
import WordMachine.Proofs.Machine.CompiledCalls
import WordMachine.Proofs.Dictionary.Superseded
import WordMachine.Proofs.Machine.UsageCounts
import WordMachine.Proofs.Source.Positions
import WordMachine.Proofs.Source.Lines
import WordMachine.Proofs.StackEffect
import WordMachine.Proofs.Machine.CoreWords
import WordMachine.Proofs.Snapshot.Categories
import WordMachine.Proofs.Token
