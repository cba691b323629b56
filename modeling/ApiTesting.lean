import ApiTesting.Proofs.Ledger
import ApiTesting.Proofs.Absorbing
import ApiTesting.Proofs.CommitOrder
import ApiTesting.Proofs.RetryMachine
import ApiTesting.Proofs.Custody
import ApiTesting.Proofs.Interleaving
import ApiTesting.Proofs.RetrySweep
import ApiTesting.Proofs.ChainOrder
import ApiTesting.Proofs.Isolation
import ApiTesting.Proofs.Subtrees
import ApiTesting.Proofs.Privileges
import ApiTesting.Proofs.AllOrNothing
import ApiTesting.Proofs.SweepFaults
import ApiTesting.Proofs.LockOrder
import ApiTesting.Proofs.ScheduleLaw
import ApiTesting.Proofs.LastOwner
import ApiTesting.Proofs.Visibility
import ApiTesting.Proofs.ReclaimTiming
import ApiTesting.Proofs.RowRecords
import ApiTesting.Proofs.Noninterference
import ApiTesting.Proofs.Substitution
import ApiTesting.Proofs.VariableNames
import ApiTesting.Proofs.RateBound
import ApiTesting.Proofs.ReclaimSweep
import ApiTesting.Proofs.Escapes
import ApiTesting.Proofs.Storable
import ApiTesting.Proofs.Verdicts
import ApiTesting.Proofs.Extraction
import ApiTesting.Proofs.Masking
import ApiTesting.Proofs.TaskPaging
import ApiTesting.Proofs.Appending
import ApiTesting.Proofs.Rationing
import ApiTesting.Proofs.Spacing
import ApiTesting.Proofs.Export
import ApiTesting.Proofs.Tenancy
import ApiTesting.Proofs.Liveness
import ApiTesting.Proofs.Tokens
import ApiTesting.Proofs.Completion
import ApiTesting.Proofs.Firing
