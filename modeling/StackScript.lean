import StackScript.Main
import StackScript.Proofs.Effect
import StackScript.Proofs.Reach
import StackScript.Proofs.ScopeChain
import StackScript.Proofs.Enclosed
import StackScript.Proofs.Matching
import StackScript.Proofs.Session
import StackScript.Proofs.Slices
import StackScript.Proofs.Recursion
import StackScript.Proofs.Following
import StackScript.Proofs.RecursiveRuns
import StackScript.Proofs.Lifecycle
import StackScript.Proofs.Failure
import StackScript.Proofs.Bindings
import StackScript.Proofs.BlockScope
import StackScript.Proofs.ScopeTree
import StackScript.Proofs.Harvest
import StackScript.Proofs.HarvestRuns
import StackScript.Proofs.FaultPlace
import StackScript.Proofs.Columns
import StackScript.Proofs.Likeness
import StackScript.Proofs.Lockstep
import StackScript.Proofs.Pieces
import StackScript.Proofs.Addresses
import StackScript.Proofs.Beneath
import StackScript.Proofs.TopLevel
import StackScript.Proofs.Spelling
import StackScript.Proofs.Postfix
import StackScript.Proofs.Restart
import StackScript.Proofs.Hosting
import StackScript.Proofs.Interrupts
import StackScript.Proofs.Requests
import StackScript.Proofs.Service
import StackScript.Proofs.NearestBinary
import StackScript.Proofs.ShortestDecimal
import StackScript.Proofs.NumeralText
import StackScript.Proofs.NumberGrammar
import StackScript.Proofs.PrintedNumber
import StackScript.Proofs.WordClasses
import StackScript.Proofs.Listing
import StackScript.Proofs.Endings
import StackScript.Proofs.Comparison
import StackScript.Proofs.StraightCode
import StackScript.Proofs.PipedInput
