import ScopedLambda.Main
import ScopedLambda.Node
import ScopedLambda.Session
import ScopedLambda.Proofs.Derivation
import ScopedLambda.Proofs.Reading
import ScopedLambda.Proofs.Walk
import ScopedLambda.Proofs.Language
import ScopedLambda.Proofs.Numbering
import ScopedLambda.Proofs.Places
import ScopedLambda.Proofs.LexicalScoping
import ScopedLambda.Proofs.CharacterClasses
import ScopedLambda.Proofs.Tiling
import ScopedLambda.Proofs.Pieces
import ScopedLambda.Proofs.Spelling
import ScopedLambda.Proofs.Relabelling
import ScopedLambda.Proofs.RoundTrip
import ScopedLambda.Proofs.Agenda
import ScopedLambda.Proofs.FirstFault
import ScopedLambda.Proofs.UseLists
import ScopedLambda.Proofs.ShadowedParameters
import ScopedLambda.Proofs.Parts
import ScopedLambda.Proofs.Slices
import ScopedLambda.Proofs.Outcomes
import ScopedLambda.Proofs.InStep
import ScopedLambda.Proofs.Renaming
import ScopedLambda.Proofs.Separators
import ScopedLambda.Proofs.Lines
import ScopedLambda.Proofs.Preludes
import ScopedLambda.Proofs.OpenExpressions
import ScopedLambda.Proofs.Sessions
import ScopedLambda.Proofs.Refusals
import ScopedLambda.Proofs.Capture
import ScopedLambda.Proofs.CanonicalNumbering
import ScopedLambda.Proofs.Legibility
import ScopedLambda.Proofs.Reordering
import ScopedLambda.Proofs.Arguments
import ScopedLambda.Proofs.CommandOutcomes
import ScopedLambda.Proofs.RefusalKinds
import ScopedLambda.Proofs.VisitingOrder
import ScopedLambda.Proofs.BoundNames
import ScopedLambda.Proofs.Aloud
import ScopedLambda.Proofs.OpenScopes
import ScopedLambda.Proofs.JournalAccount
import ScopedLambda.Proofs.JournalLines
