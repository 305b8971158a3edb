import TunnelMesh.Registry.Agreement
import TunnelMesh.Storage.Registration.Takeover
import TunnelMesh.Vpn.SubnetLease.Exclusion
import TunnelMesh.Vpn.PeerLifecycle.Finality
import TunnelMesh.Auth.Sticky
import TunnelMesh.Auth.GuessBudget
import TunnelMesh.Auth.TrustedDevice
import TunnelMesh.Authorization.Cache.Credentials
import TunnelMesh.Relay.ConnectionClose.Authentication
import TunnelMesh.ServerNode.Lifecycle
import TunnelMesh.ServerNode.Epoch
import TunnelMesh.Client.FrameStream.EndOfFile
import TunnelMesh.Relay.AgentStream.Boundaries
import TunnelMesh.Relay.Link.Datagrams
import TunnelMesh.Client.FrameStream.Announcement
import TunnelMesh.Agent.StreamEntry.Shutdown
import TunnelMesh.Agent.StreamDispatcher.Order
import TunnelMesh.Agent.StreamDispatcher.Ceiling
import TunnelMesh.Relay.ClientOpen.Cancel
import TunnelMesh.Relay.AgentStream.Departure
import TunnelMesh.Client.UploadPath.Theorems
import TunnelMesh.Relay.ConnectionClose.Delivery.Theorems
import TunnelMesh.Protocol.Codec
import TunnelMesh.Protocol.StreamMachine.Theorems
import TunnelMesh.Server.RelayTransport.Theorems
import TunnelMesh.Relay.CrossNode.Theorems
import TunnelMesh.Relay.CrossNode.Local
import TunnelMesh.Vpn.Relays.Teardown
import TunnelMesh.Vpn.Relays.Egress
import TunnelMesh.Vpn.Stack
import TunnelMesh.Vpn.Pool.Allocation
import TunnelMesh.Vpn.Gateway.Metering
import TunnelMesh.Server.ConnectionSelector
import TunnelMesh.Server.WebSSHSession
import TunnelMesh.Auth.Confirmation
import TunnelMesh.Auth.Replay
import TunnelMesh.Authorization.Rotation
import TunnelMesh.Auth.Throttle
import TunnelMesh.Storage.Listing.Walks
import TunnelMesh.Session.FairFrameWriter.Refusal
import TunnelMesh.Session.FairFrameWriter.Sending
import TunnelMesh.Relay.CrossNode.Credit
import TunnelMesh.Client.Datagram.Reads
import TunnelMesh.Server.AgentExec
import TunnelMesh.Session.FairFrameWriter.Cancel
import TunnelMesh.Storage.ClientLease.Sweep
import TunnelMesh.Vpn.PeerCapacity
import TunnelMesh.Server.WebSSHOpen
import TunnelMesh.Auth.DeviceCap
import TunnelMesh.Server.OpenQueue
import TunnelMesh.Storage.Idempotency
