import GridPattern.Main
import GridPattern.Proofs.Token.Scanning
import GridPattern.Proofs.Token.Places
import GridPattern.Proofs.Token.Escaping
import GridPattern.Proofs.Token.Plain
import GridPattern.Proofs.Pattern.Completeness
import GridPattern.Proofs.Pattern.FirstFault
import GridPattern.Proofs.Pattern.Operands
import GridPattern.Proofs.Pattern.Alternatives
import GridPattern.Proofs.Pattern.BlankLines
import GridPattern.Proofs.Walk.Agreement
import GridPattern.Proofs.Walk.Groups
import GridPattern.Proofs.Walk.Exclusive
import GridPattern.Proofs.Walk.Classes
import GridPattern.Proofs.Walk.Rotation
import GridPattern.Proofs.Walk.Margins
import GridPattern.Proofs.Walk.Fenced
import GridPattern.Proofs.Walk.Gauged
import GridPattern.Proofs.Walk.Ending
import GridPattern.Proofs.Walk.Inlined
import GridPattern.Proofs.Walk.Restricted
import GridPattern.Proofs.Walk.Unrolled
import GridPattern.Proofs.Walk.Regrouped
import GridPattern.Proofs.Walk.Forward
import GridPattern.Proofs.Walk.Torus
import GridPattern.Proofs.Walk.Everywhere
import GridPattern.Proofs.Walk.Narrow
import GridPattern.Proofs.Search.Report
import GridPattern.Proofs.Search.Budget
import GridPattern.Proofs.Search.Blame
import GridPattern.Proofs.Search.Unmarked
import GridPattern.Proofs.Search.Origins
import GridPattern.Proofs.Search.StartCells
import GridPattern.Proofs.Search.Reachable
import GridPattern.Proofs.Search.Stages
import GridPattern.Proofs.Search.Alternatives
import GridPattern.Proofs.Search.Words
import GridPattern.Proofs.Search.Squares
import GridPattern.Proofs.Drawing
import GridPattern.Proofs.CommandLine
