import ScopeTree.Edit
import ScopeTree.Proofs.ClassScope
import ScopeTree.Proofs.Template
import ScopeTree.Proofs.Termination
import ScopeTree.Session
import ScopeTree.Diagnostic.Sink
import ScopeTree.Proofs.Isolation
import ScopeTree.Proofs.WriteOnce
import ScopeTree.Proofs.Forgetting
import ScopeTree.Proofs.Questions
import ScopeTree.Proofs.Resources
import ScopeTree.Proofs.Roots
import ScopeTree.Proofs.InheritedDefaults
import ScopeTree.Proofs.InheritedTags
import ScopeTree.Proofs.Cutting
import ScopeTree.Proofs.BackslashRuns
import ScopeTree.Proofs.References
import ScopeTree.Proofs.Failures
import ScopeTree.Interpolation.Delivery
import ScopeTree.Proofs.Warnings
import ScopeTree.Proofs.CutPoints
import ScopeTree.Proofs.Registry
import ScopeTree.Proofs.LowerCaseNames
import ScopeTree.Proofs.SearchPath
import ScopeTree.Proofs.KeptParent
import ScopeTree.Proofs.LookupModes
import ScopeTree.Proofs.NewScopes
import ScopeTree.Proofs.Levels
import ScopeTree.Proofs.OwnDefaults
import ScopeTree.Proofs.Registrations
import ScopeTree.Proofs.OwnTags
import ScopeTree.Proofs.OwnVariables
import ScopeTree.Proofs.OptionPairs
import ScopeTree.Proofs.ResourceTexts
import ScopeTree.Proofs.DiagnosticTexts
import ScopeTree.Proofs.NameBytes
import ScopeTree.Proofs.Cursor
import ScopeTree.Proofs.ValueTexts
