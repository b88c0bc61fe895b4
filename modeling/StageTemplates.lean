import StageTemplates.Log
import StageTemplates.Proofs.AnnouncedStages
import StageTemplates.Proofs.CheckedValues
import StageTemplates.Proofs.CommandArguments
import StageTemplates.Proofs.FieldErrors
import StageTemplates.Proofs.FlattenedLeaves
import StageTemplates.Proofs.FoundRecords
import StageTemplates.Proofs.ImportTable
import StageTemplates.Proofs.InsertedText
import StageTemplates.Proofs.LexicalPlaces
import StageTemplates.Proofs.LiteralValues
import StageTemplates.Proofs.MappingEntries
import StageTemplates.Proofs.MemberKeys
import StageTemplates.Proofs.OverwritingMerge
import StageTemplates.Proofs.PartialImports
import StageTemplates.Proofs.RelativePaths
import StageTemplates.Proofs.ReleasedOrder
import StageTemplates.Proofs.ResolvedNodes
import StageTemplates.Proofs.ScopedMerges
import StageTemplates.Proofs.ScopedUses
import StageTemplates.Proofs.SelectedWords
import StageTemplates.Proofs.ShadowWarnings
import StageTemplates.Proofs.StageLookup
import StageTemplates.Proofs.StoppedMerge
import StageTemplates.Proofs.StyledNames
import StageTemplates.Proofs.SyntaxFaults
import StageTemplates.Proofs.TokenFreeValues
import StageTemplates.Proofs.TokenSpans
import StageTemplates.Proofs.TrackedRecord
import StageTemplates.Proofs.VarsOrder
import StageTemplates.Stage.Resolver
