import SchemaMigration.Main
import SchemaMigration.Proofs.RunLog
import SchemaMigration.Proofs.HistoryPrefix
import SchemaMigration.Proofs.Resume
import SchemaMigration.Proofs.Host
import SchemaMigration.Proofs.Convergence
import SchemaMigration.Proofs.Foretelling
import SchemaMigration.Proofs.Repetition
import SchemaMigration.Proofs.GuardDiscipline
import SchemaMigration.Proofs.SafeDrops
import SchemaMigration.Proofs.Quotation
import SchemaMigration.Proofs.LegibleStatements
import SchemaMigration.Proofs.ExactPlans
import SchemaMigration.Proofs.Declarations
import SchemaMigration.Proofs.FailFast
import SchemaMigration.Proofs.Recognition
import SchemaMigration.Proofs.Alterations
import SchemaMigration.Proofs.ConstraintPatterns
import SchemaMigration.Proofs.Reversal
import SchemaMigration.Proofs.ConstraintDefinitions
import SchemaMigration.Proofs.LookingDrops
import SchemaMigration.Proofs.LegalNames
import SchemaMigration.Proofs.HistoryNumerals
