import CandyCircle.Logic.Meaning
import CandyCircle.Main
import CandyCircle.Proofs.Dynamics.Counting
import CandyCircle.Proofs.Dynamics.Descent
import CandyCircle.Proofs.Fact.Coverage
import CandyCircle.Proofs.Fact.Instances
import CandyCircle.Proofs.Ledger.Bundle
import CandyCircle.Proofs.Plan.Attribution
import CandyCircle.Proofs.Plan.Soundness
import CandyCircle.Proofs.Refutation.Concluding
import CandyCircle.Proofs.Refutation.Dependence
import CandyCircle.Proofs.Refutation.Hygiene
import CandyCircle.Proofs.Refutation.Refusals
import CandyCircle.Proofs.Refutation.TwoStep
import CandyCircle.Proofs.Refutation.WellFounded
import CandyCircle.Proofs.Settings.Effective
import CandyCircle.Proofs.Settings.Search
import CandyCircle.Proofs.Witness
import CandyCircle.Refutation.Snapshot
import CandyCircle.Report.Unchecked
import CandyCircle.Settings.Given
import CandyCircle.Vocabulary.Lookup
import CandyCircle.Vocabulary.Start
