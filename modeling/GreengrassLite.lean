import GreengrassLite.Config.Notify
import GreengrassLite.Config.Survival
import GreengrassLite.CoreBus.Discipline
import GreengrassLite.CoreBus.SubResponse
import GreengrassLite.Deployment.CandidateBody
import GreengrassLite.Deployment.Cleanup
import GreengrassLite.Deployment.CloudCandidate
import GreengrassLite.Deployment.EnqueueFailure
import GreengrassLite.Deployment.JobTracking
import GreengrassLite.Deployment.JobVersion
import GreengrassLite.Deployment.JobsThreads
import GreengrassLite.Deployment.LatestRoots
import GreengrassLite.Deployment.RecipeStore
import GreengrassLite.EventStream.Checksum
import GreengrassLite.EventStream.RoundTrip
import GreengrassLite.Fleet.StatusService
import GreengrassLite.Iotcored.Bookkeeping
import GreengrassLite.Iotcored.Deadlock
import GreengrassLite.Iotcored.PacketStore
import GreengrassLite.Ipc.ConfigPath
import GreengrassLite.Ipc.Forwarding
import GreengrassLite.Ipc.Identity
import GreengrassLite.Ipc.MqttPolicy
import GreengrassLite.Ipc.UpdateOrder
import GreengrassLite.Json.Strings
import GreengrassLite.Pubsub.Subscriptions
import GreengrassLite.Socket.Generations
import GreengrassLite.Zip.Confinement
