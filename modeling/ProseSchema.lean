import ProseSchema.Json.Read
import ProseSchema.Json.Write
import ProseSchema.Json.Access
import ProseSchema.Literal
import ProseSchema.Sentence.Grammar
import ProseSchema.Problem.Catalog
import ProseSchema.Validator
import ProseSchema.Proofs.MergedKeys
import ProseSchema.Proofs.Conforms
import ProseSchema.Proofs.MachineReports
import ProseSchema.Proofs.CleanMachines
import ProseSchema.Proofs.AssertedWalk
import ProseSchema.Proofs.InsertionOrder
import ProseSchema.Proofs.LevelOrder
import ProseSchema.Proofs.SentenceMeaning
import ProseSchema.Proofs.ReadingBack
import ProseSchema.Proofs.MachineAlone
import ProseSchema.Proofs.WalkOutcome
import ProseSchema.Proofs.Places
import ProseSchema.Proofs.ProblemPlaces
import ProseSchema.Proofs.ReorderedItems
import ProseSchema.Proofs.ReorderedStates
import ProseSchema.Proofs.MemberOrder
import ProseSchema.Proofs.FirstQuote
import ProseSchema.Proofs.SpokenLines
import ProseSchema.Proofs.RefusedPatterns
import ProseSchema.Proofs.OpenFields
import ProseSchema.Proofs.CleanReports
import ProseSchema.Proofs.MachineCoverage
import ProseSchema.Proofs.StateOrigins
import ProseSchema.Proofs.SentenceForms
import ProseSchema.Proofs.LineLayout
import ProseSchema.Proofs.MessageArguments
import ProseSchema.Proofs.RoleWalk
import ProseSchema.Proofs.SignedArrays
import ProseSchema.Proofs.ListedTexts
import ProseSchema.Proofs.MatchedRoles
import ProseSchema.Proofs.QuotedLists
import ProseSchema.Proofs.PathText
import ProseSchema.Proofs.PathDialects
import ProseSchema.Proofs.RepeatedNames
import ProseSchema.Proofs.ReachedParts
import ProseSchema.Proofs.StateFlaws
import ProseSchema.Proofs.LiteralText
import ProseSchema.Proofs.DecimalText
import ProseSchema.Proofs.IntegerLiterals
import ProseSchema.Proofs.IntegerRelations
import ProseSchema.Proofs.FilledTemplates
import ProseSchema.Proofs.KnownRoles
import ProseSchema.Proofs.RefusedSentences
import ProseSchema.Proofs.TypedAccess
import ProseSchema.Proofs.UnreadValues
import ProseSchema.Proofs.FieldLists
import ProseSchema.Proofs.LongestSubject
import ProseSchema.Proofs.WholeLines
import ProseSchema.Proofs.CatchAllHandlers
import ProseSchema.Proofs.ClampedIntegers
