import ConstraintRouting.Fabric.AssemblyBound
import ConstraintRouting.Fabric.AttemptReuse
import ConstraintRouting.Fabric.AttemptStreams
import ConstraintRouting.Fabric.Bindings
import ConstraintRouting.Fabric.CommitOrder
import ConstraintRouting.Fabric.Contradictions
import ConstraintRouting.Fabric.Damage
import ConstraintRouting.Fabric.DurableTwin
import ConstraintRouting.Fabric.FedContent
import ConstraintRouting.Fabric.ForeignFields
import ConstraintRouting.Fabric.Hashing
import ConstraintRouting.Fabric.KeyInvalidation
import ConstraintRouting.Fabric.Levels
import ConstraintRouting.Fabric.Margins
import ConstraintRouting.Fabric.Memberships
import ConstraintRouting.Fabric.Precision
import ConstraintRouting.Fabric.Quarantine
import ConstraintRouting.Fabric.Reads
import ConstraintRouting.Fabric.RejectedBatches
import ConstraintRouting.Fabric.RemoteMutations
import ConstraintRouting.Fabric.RemoteQueries
import ConstraintRouting.Fabric.Republication
import ConstraintRouting.Fabric.Restriction
import ConstraintRouting.Fabric.ResultsDiff
import ConstraintRouting.Fabric.SessionNumbers
import ConstraintRouting.Fabric.StaleFrames
import ConstraintRouting.Fabric.StoreRecovery
import ConstraintRouting.Fabric.Succession
