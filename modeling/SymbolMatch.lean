import SymbolMatch.Input
import SymbolMatch.Proofs.OrderIndependence
import SymbolMatch.Proofs.Renaming
import SymbolMatch.Resolver
import SymbolMatch.Proofs.Descriptor.Bytes
import SymbolMatch.Proofs.Matching.Refinement
import SymbolMatch.Proofs.Number.Bounds
import SymbolMatch.Proofs.Matching.Counterpart
import SymbolMatch.Proofs.Similarity
import SymbolMatch.Proofs.Matching.SelfMatch
import SymbolMatch.Proofs.Matching.Accounting
import SymbolMatch.Proofs.UsageGraph
import SymbolMatch.Proofs.FieldMatch.Assignment
import SymbolMatch.Proofs.FieldMatch.StableFields
import SymbolMatch.Proofs.FieldMatch.Shortlist
import SymbolMatch.Proofs.FieldMatch.Greedy
import SymbolMatch.Proofs.Matching.Validation
import SymbolMatch.Proofs.Access.Owners
import SymbolMatch.Proofs.Selection.Choice
import SymbolMatch.Proofs.Matching.Propagation
import SymbolMatch.Proofs.Measures
import SymbolMatch.Proofs.Matching.Anchors
import SymbolMatch.Proofs.Descriptor.Action
import SymbolMatch.Proofs.Access.Redirection
import SymbolMatch.Proofs.Access.Scan
import SymbolMatch.Proofs.Access.Balance
import SymbolMatch.Proofs.Access.Usage
import SymbolMatch.Proofs.Matching.Ballot
import SymbolMatch.Proofs.Number.Operands
import SymbolMatch.Proofs.Overlap.Union
import SymbolMatch.Proofs.Number.Quarters
import SymbolMatch.Proofs.Symmetry
import SymbolMatch.Proofs.FieldMatch.Counters
import SymbolMatch.Proofs.Program.Acceptance
import SymbolMatch.Proofs.FieldIndex
import SymbolMatch.Proofs.Access.Siblings
import SymbolMatch.Proofs.Pairing.Collisions
import SymbolMatch.Proofs.Fingerprint.Totals
import SymbolMatch.Proofs.Overlap.Counts
