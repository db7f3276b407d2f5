import Fe2o3.Completion.Runs
import Fe2o3.Completion.Conservation
import Fe2o3.Completion.Wire
import Fe2o3.RuntimeModel.Runs
import Fe2o3.RuntimeModel.MemoryPool
import Fe2o3.Virtual.Reset
import Fe2o3.Virtual.StaleHandles
import Fe2o3.Virtual.Ambiguity
import Fe2o3.Aql.DependencyDispatch
import Fe2o3.Presburger.Coverage
import Fe2o3.MemoryLifecycle.MappedDevices
import Fe2o3.MemoryLifecycle.Checkpoints
import Fe2o3.QueueLifecycle.Custody
import Fe2o3.ServiceModel.Custody
import Fe2o3.ServiceModel.DependencyOrder
import Fe2o3.AmdhsaLoader.Image
import Fe2o3.StaticExecutable.CodePointers
import Fe2o3.KernelIr.Termination
import Fe2o3.KernelIr.Reducibility
import Fe2o3.KernelIr.ScalarExactness
