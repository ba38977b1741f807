import Abacus.Main
import Abacus.Expr.Meaning
import Abacus.Expr.Source
import Abacus.Program.Grammar
import Abacus.Program.Recognizer
import Abacus.Program.Descent
import Abacus.Token.Layout
import Abacus.Proofs.Exactness
import Abacus.Proofs.Evaluation
import Abacus.Proofs.Recognition
import Abacus.Proofs.Scanning
import Abacus.Proofs.Outcome
import Abacus.Proofs.Viability
import Abacus.Proofs.Layout
import Abacus.Proofs.Numbers
import Abacus.Proofs.Writing
import Abacus.Proofs.Contents
import Abacus.Proofs.Diagnostics
import Abacus.Proofs.Blanks
import Abacus.Proofs.Sessions
import Abacus.Proofs.Scripts
import Abacus.Proofs.Faults
import Abacus.Proofs.Dumps
import Abacus.Proofs.Outlines
import Abacus.Proofs.PostOrder
import Abacus.Proofs.Segments
import Abacus.Proofs.Cuts
import Abacus.Proofs.Pieces
import Abacus.Proofs.Ends
import Abacus.Proofs.Agreement
import Abacus.Proofs.Characters
import Abacus.Proofs.Terminators
import Abacus.Proofs.Descent
import Abacus.Proofs.Moves
import Abacus.Proofs.Nesting
