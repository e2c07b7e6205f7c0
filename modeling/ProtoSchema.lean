import ProtoSchema.Main
import ProtoSchema.Proofs.Bookkeeping
import ProtoSchema.Proofs.CommentLines
import ProtoSchema.Proofs.CommentWriting
import ProtoSchema.Proofs.CursorScans
import ProtoSchema.Proofs.DeclarationComments
import ProtoSchema.Proofs.Delivery
import ProtoSchema.Proofs.Descriptions
import ProtoSchema.Proofs.DirectiveFailure
import ProtoSchema.Proofs.DirectiveOrder
import ProtoSchema.Proofs.DirectiveReading
import ProtoSchema.Proofs.DirectiveWriting
import ProtoSchema.Proofs.DocumentCoverage
import ProtoSchema.Proofs.DocumentNames
import ProtoSchema.Proofs.ExclusiveFields
import ProtoSchema.Proofs.FieldDirectives
import ProtoSchema.Proofs.FileOrder
import ProtoSchema.Proofs.GuiltyDeclarations
import ProtoSchema.Proofs.IgnoredDirectives
import ProtoSchema.Proofs.IntegerLiterals
import ProtoSchema.Proofs.ItemDirectives
import ProtoSchema.Proofs.KindConsistency
import ProtoSchema.Proofs.MapFields
import ProtoSchema.Proofs.MessageShape
import ProtoSchema.Proofs.NestedBodies
import ProtoSchema.Proofs.PlainRecursion
import ProtoSchema.Proofs.QuotedLiterals
import ProtoSchema.Proofs.ReferenceMeaning
import ProtoSchema.Proofs.Registration
import ProtoSchema.Proofs.RequestOrder
import ProtoSchema.Proofs.SettingsEntries
import ProtoSchema.Proofs.Summaries
import ProtoSchema.Proofs.Termination
import ProtoSchema.Proofs.TypeResolution
