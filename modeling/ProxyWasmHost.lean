import ProxyWasmHost.Codec.RoundTrip
import ProxyWasmHost.Codec.Changed
import ProxyWasmHost.Store.InUse
import ProxyWasmHost.Store.CompareAndSwap
import ProxyWasmHost.Store.Metrics
import ProxyWasmHost.Store.Isolation
import ProxyWasmHost.Store.Footprint
import ProxyWasmHost.Guest.SharedNames
import ProxyWasmHost.Guest.Streams
import ProxyWasmHost.Guest.Refusal
import ProxyWasmHost.Guest.Plugins
import ProxyWasmHost.Guest.Acknowledged
import ProxyWasmHost.Guest.Reports
import ProxyWasmHost.Guest.Callouts
import ProxyWasmHost.Guest.Barred
import ProxyWasmHost.Runtime.Access
import ProxyWasmHost.Guest.Openings
import ProxyWasmHost.Guest.OpenLimit
import ProxyWasmHost.Guest.Identifiers
import ProxyWasmHost.Guest.Endings
import ProxyWasmHost.Guest.Custody
import ProxyWasmHost.HeaderMap.Vec
import ProxyWasmHost.HostFunctions.BufferRange
import ProxyWasmHost.HostFunctions.HeaderMapSize
import ProxyWasmHost.HostFunctions.PropertyPath
import ProxyWasmHost.HostFunctions.WasiFaults
import ProxyWasmHost.Runtime.Budget
import ProxyWasmHost.Runtime.OptionalReturn
import ProxyWasmHost.Guest.Served
import ProxyWasmHost.HostFunctions.Honest
import ProxyWasmHost.Guest.Trees
import ProxyWasmHost.Guest.Turns
import ProxyWasmHost.Guest.Lives
import ProxyWasmHost.HostFunctions.Discipline
import ProxyWasmHost.HostFunctions.Shelter
import ProxyWasmHost.Codec.Reserve
import ProxyWasmHost.Guest.Grants
import ProxyWasmHost.Guest.Protocol
import ProxyWasmHost.Guest.Signalled
import ProxyWasmHost.Guest.Deletions
import ProxyWasmHost.Guest.Limited
import ProxyWasmHost.System.Exchange
import ProxyWasmHost.System.Identities
import ProxyWasmHost.Guest.WindDown
