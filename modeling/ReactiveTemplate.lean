import ReactiveTemplate.Component.Cache
import ReactiveTemplate.Page.Compile
import ReactiveTemplate.Proofs.Component.Cache
import ReactiveTemplate.Proofs.Component.Completeness
import ReactiveTemplate.Proofs.Component.Content
import ReactiveTemplate.Proofs.Component.Leftovers
import ReactiveTemplate.Proofs.Fragment.Usage
import ReactiveTemplate.Proofs.Page.Exact
import ReactiveTemplate.Proofs.Page.Loops
import ReactiveTemplate.Proofs.Page.Resolved
import ReactiveTemplate.Proofs.Tree.Renaming
import ReactiveTemplate.Proofs.Fragment.Renaming
import ReactiveTemplate.Proofs.Component.Renaming
import ReactiveTemplate.Proofs.Fragment.Faults
import ReactiveTemplate.Proofs.Component.Recursion
import ReactiveTemplate.Proofs.Page.Bindings
import ReactiveTemplate.Proofs.Page.Pieces
import ReactiveTemplate.Proofs.Markup.Delivery
import ReactiveTemplate.Proofs.Page.Reading
import ReactiveTemplate.Proofs.Markup.Construction
import ReactiveTemplate.Proofs.Markup.Formatting
import ReactiveTemplate.Proofs.Component.Ownership
import ReactiveTemplate.Proofs.Component.SlotNames
import ReactiveTemplate.Proofs.Page.Hoisting
import ReactiveTemplate.Proofs.Component.Collection
import ReactiveTemplate.Proofs.Page.Enumeration
import ReactiveTemplate.Proofs.Fragment.Branches
import ReactiveTemplate.Proofs.Fragment.Depth
import ReactiveTemplate.Proofs.Code.Heads
import ReactiveTemplate.Proofs.Script.Parameters
import ReactiveTemplate.Proofs.Script.Substitution
import ReactiveTemplate.Proofs.Template.Capture
import ReactiveTemplate.Proofs.Template.Literal
import ReactiveTemplate.Proofs.Template.Conservation
import ReactiveTemplate.Proofs.Page.Specification
import ReactiveTemplate.Proofs.Fragment.Lowered
import ReactiveTemplate.Proofs.Fragment.Positions
import ReactiveTemplate.Proofs.Tree.Rekeying
import ReactiveTemplate.Proofs.Component.Landing
import ReactiveTemplate.Proofs.Component.Markers
import ReactiveTemplate.Proofs.Tree.Rebinding
import ReactiveTemplate.Proofs.Tree.Operations
import ReactiveTemplate.Proofs.Component.Refresh
import ReactiveTemplate.Proofs.Code.Extents
import ReactiveTemplate.Proofs.Code.Parentheses
import ReactiveTemplate.Proofs.Code.Interpolation
import ReactiveTemplate.Proofs.Code.Matching
import ReactiveTemplate.Proofs.Code.Boundaries
import ReactiveTemplate.Proofs.Markup.Decode
import ReactiveTemplate.Proofs.Page.Hydration
import ReactiveTemplate.Proofs.Page.PrivateWords
