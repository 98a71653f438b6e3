import Scanipy.Analysis.CpgDelta.Exact
import Scanipy.Analysis.CpgDelta.Validity
import Scanipy.Analysis.CpgIngest.Ownership
import Scanipy.Analysis.CpgIngest.Termination
import Scanipy.Analysis.Fingerprint.Dependence
import Scanipy.Analysis.Fingerprint.Prefixes
import Scanipy.Analysis.Ifds.Confinement
import Scanipy.Analysis.Ifds.Dsl.Completeness
import Scanipy.Analysis.Ifds.Dsl.Flow
import Scanipy.Analysis.Ifds.Relisting
import Scanipy.Analysis.Ifds.SolutionHash
import Scanipy.Analysis.Ordering.FullTree
import Scanipy.Db.Accepted.Sealing
import Scanipy.Db.Execution.Reopening
import Scanipy.Db.Execution.Replay
import Scanipy.Db.Execution.Retirement
import Scanipy.Integrations.Scm.GitObjects.Exact
import Scanipy.Services.Continuity.Agreement
import Scanipy.Services.ControlPlane.Fidelity
import Scanipy.Services.Scan.AcceptedInputs.Evolution
import Scanipy.Services.Scan.Api.Submission
import Scanipy.Services.Scan.Attestor
import Scanipy.Services.Scan.OccurrenceStore.Agreement
import Scanipy.Services.Scan.OracleFingerprint
import Scanipy.Services.Scan.Provenance.Export
import Scanipy.Services.Scan.SqlAdapters
import Scanipy.Services.Snapshot.CwDetect
import Scanipy.Services.Snapshot.ExecuteLoop
import Scanipy.Services.Substrate.CpgTarball
import Scanipy.Services.Substrate.Delivery
import Scanipy.Services.Triage.CustomerStreams
import Scanipy.Services.Triage.Families
import Scanipy.Services.Triage.SpecVersions
import Scanipy.Tools.Worker.Census
import Scanipy.Tools.Worker.HistoryScan
import Scanipy.Tools.Worker.Journal.Forward
import Scanipy.Tools.Worker.Journal.Guards
import Scanipy.Tools.Worker.Journal.References
import Scanipy.Tools.Worker.RuntimeRoundTrip
