import SpellText.Main
import SpellText.Proofs.Marking
import SpellText.Proofs.Braces
import SpellText.Proofs.Fates
import SpellText.Proofs.SecondPass
import SpellText.Proofs.Derivations
import SpellText.Proofs.Nesting
import SpellText.Proofs.Grammar.Basic
import SpellText.Proofs.Grammar.Tokens
import SpellText.Proofs.Grammar.Soundness
import SpellText.Proofs.Grammar.Completeness
import SpellText.Proofs.Grammar.Parsing
import SpellText.Proofs.Doubles
import SpellText.Proofs.RankArithmetic
import SpellText.Proofs.OneName
import SpellText.Proofs.Leaves
import SpellText.Proofs.Records
import SpellText.Proofs.Keys
import SpellText.Proofs.Workers
import SpellText.Proofs.JsonText.Readable
import SpellText.Proofs.JsonText.Shortest
import SpellText.Proofs.JsonText.Numbers
import SpellText.Proofs.JsonText.Compact
import SpellText.Proofs.Documents
import SpellText.Proofs.Isolation
import SpellText.Proofs.Writing
import SpellText.Proofs.Saving
import SpellText.Proofs.Runs
import SpellText.Proofs.Locales
import SpellText.Proofs.LetterCase.Text
import SpellText.Proofs.LetterCase.Reading
import SpellText.Proofs.LetterCase.Answers
import SpellText.Proofs.Lookups
import SpellText.Proofs.References
import SpellText.Proofs.Numerals
import SpellText.Proofs.BundleEntries
import SpellText.Proofs.Fields
import SpellText.Proofs.UnknownParts
import SpellText.Proofs.Places
import SpellText.Proofs.EmptyFields
import SpellText.Proofs.PartSums
import SpellText.Proofs.Skips
import SpellText.Proofs.Factors
import SpellText.Proofs.ReadingBack
import SpellText.Proofs.Grammar.Offsets
import SpellText.Proofs.NextLevel
import SpellText.Proofs.NamedNumbers
import SpellText.Proofs.ResourceTexts
import SpellText.Proofs.StatLabels
import SpellText.Proofs.NodeOrder
import SpellText.Proofs.Spellings
