import ParseBench.Main
import ParseBench.Proofs.CommandLine.TrainCommand
import ParseBench.Proofs.Data.DevSplit
import ParseBench.Proofs.Data.Loading
import ParseBench.Proofs.Grammar.Collection
import ParseBench.Proofs.Grammar.Passes
import ParseBench.Proofs.Grammar.Rounds
import ParseBench.Proofs.Grammar.SymbolTable
import ParseBench.Proofs.Host.System
import ParseBench.Proofs.Json.Merge
import ParseBench.Proofs.Model.Load
import ParseBench.Proofs.Parser.Decoding
import ParseBench.Proofs.Parser.Errors
import ParseBench.Proofs.Parser.Locality
import ParseBench.Proofs.Parser.Places
import ParseBench.Proofs.Parser.Reordering
import ParseBench.Proofs.Program.DeviceSplitting
import ParseBench.Proofs.Score.Reordering
import ParseBench.Proofs.Score.RuleCount
import ParseBench.Proofs.Stats.Conservation
import ParseBench.Proofs.Stats.Row
import ParseBench.Proofs.Stats.Streaming
import ParseBench.Proofs.Training.Display
import ParseBench.Proofs.Training.Evaluate
import ParseBench.Proofs.Training.Hparams
import ParseBench.Proofs.Training.OutputDirectories
