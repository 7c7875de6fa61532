import MiniPascal.Position
import MiniPascal.Symbol.Table
import MiniPascal.Syntax.Symbols
import MiniPascal.Syntax.Same
import MiniPascal.Syntax.Printer
import MiniPascal.Syntax.Document
import MiniPascal.Checking.Body
import MiniPascal.Optimization.Folding
import MiniPascal.Compiler
import MiniPascal.Text.Quoted
import MiniPascal.Diagnostics.Failure
import MiniPascal.CommandLine.Run
import MiniPascal.Main
import MiniPascal.Proofs.Folding.Statements
import MiniPascal.Proofs.Checking.Soundness
import MiniPascal.Proofs.Compilation.Safety
import MiniPascal.Proofs.Retyping.Programs
import MiniPascal.Proofs.Scopes.Blocks
import MiniPascal.Proofs.Symbol.Calls
import MiniPascal.Proofs.Symbol.Histories
import MiniPascal.Proofs.Symbol.Runs
import MiniPascal.Proofs.Compilation.Sequence
import MiniPascal.Proofs.Checking.Demands
import MiniPascal.Proofs.Checking.Casts
import MiniPascal.Proofs.Checking.Matching
import MiniPascal.Proofs.Compilation.Recompiling
import MiniPascal.Proofs.Folding.Passes
import MiniPascal.Proofs.Compilation.Saving
import MiniPascal.Proofs.Folding.Slots
import MiniPascal.Proofs.Folding.IntegerTrees
import MiniPascal.Proofs.Checking.Arguments
import MiniPascal.Proofs.Checking.Mixing
import MiniPascal.Proofs.Checking.Environments
import MiniPascal.Proofs.CommandLine.Verdict
import MiniPascal.Proofs.Syntax.Reading
import MiniPascal.Proofs.Syntax.Indentation
import MiniPascal.Proofs.Checking.Visits
import MiniPascal.Proofs.CommandLine.Levels
import MiniPascal.Proofs.Diagnostics.Colors
import MiniPascal.Proofs.Syntax.Sameness
