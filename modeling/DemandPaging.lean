import DemandPaging.Machine.Audit
import DemandPaging.Operation
import DemandPaging.Workload
import DemandPaging.Storage.SparseBytes.View
import DemandPaging.Main
import DemandPaging.Proofs.Audit
import DemandPaging.Proofs.Safety
import DemandPaging.Proofs.Slots
import DemandPaging.Proofs.Ledger.Contents
import DemandPaging.Proofs.Ledger.Transfers
import DemandPaging.Proofs.Ledger.Files
import DemandPaging.Proofs.Permission
import DemandPaging.Proofs.Legality
import DemandPaging.Proofs.Settling
import DemandPaging.Proofs.Forking
import DemandPaging.Proofs.Workload
import DemandPaging.Proofs.Returning
import DemandPaging.Proofs.Reference
import DemandPaging.Proofs.Refinement
import DemandPaging.Proofs.Ledger.Keeping
import DemandPaging.Proofs.Region
import DemandPaging.Proofs.Mapping
import DemandPaging.Proofs.Isolation
import DemandPaging.Proofs.SecondChance
import DemandPaging.Proofs.Tiling
import DemandPaging.Proofs.Copying
import DemandPaging.Proofs.Harmless
import DemandPaging.Proofs.Growth
import DemandPaging.Proofs.StackUse
import DemandPaging.Proofs.Unmapping
import DemandPaging.Proofs.Storage.SwapMap
import DemandPaging.Proofs.Memory.FramePool
import DemandPaging.Proofs.UserCopy
import DemandPaging.Proofs.Identities
import DemandPaging.Proofs.Memory.Translations
import DemandPaging.Proofs.Storage.RoundTrip
