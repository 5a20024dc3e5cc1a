import SunbeamProxy.Acme
import SunbeamProxy.Caddyfile.Directory
import SunbeamProxy.Caddyfile.ForwardAuth
import SunbeamProxy.Caddyfile.Listeners
import SunbeamProxy.Caddyfile.PathMatchers
import SunbeamProxy.Caddyfile.Sites
import SunbeamProxy.Cluster.BandwidthMeter
import SunbeamProxy.Cluster.BandwidthTracker
import SunbeamProxy.Cluster.DigestPublisher
import SunbeamProxy.Gateway.Attachment
import SunbeamProxy.Gateway.CertSources
import SunbeamProxy.Gateway.DigestPlane
import SunbeamProxy.Gateway.DigestTies
import SunbeamProxy.Gateway.DiskSource
import SunbeamProxy.Gateway.GrpcMethods
import SunbeamProxy.Gateway.HostnameAlgebra
import SunbeamProxy.Gateway.LeaderFlag
import SunbeamProxy.Gateway.ListenerCertificates
import SunbeamProxy.Gateway.Notify
import SunbeamProxy.Gateway.RouteTies
import SunbeamProxy.Gateway.ServiceAddress
import SunbeamProxy.Gateway.TrafficSplit
import SunbeamProxy.IR.Discriminators
import SunbeamProxy.L4.Manager
import SunbeamProxy.L4.Peek
import SunbeamProxy.L4.RelayTasks
import SunbeamProxy.L4.UdpRelay
import SunbeamProxy.Proxy.BodyRewrite
import SunbeamProxy.Proxy.CacheIdentity
import SunbeamProxy.Proxy.CacheRouting
import SunbeamProxy.Proxy.Cors
import SunbeamProxy.Proxy.HostCase
import SunbeamProxy.Proxy.PathChanges
import SunbeamProxy.Proxy.PathPrefixes
import SunbeamProxy.Proxy.PathRedirect
import SunbeamProxy.Proxy.StaticFiles
import SunbeamProxy.Proxy.StaticRewrites
import SunbeamProxy.Proxy.UpstreamTls
import SunbeamProxy.RateLimit.ClientBudget
import SunbeamProxy.RateLimit.ClientHistory
import SunbeamProxy.RateLimit.Eviction
import SunbeamProxy.RouteManager.History
import SunbeamProxy.RouteManager.Worker
import SunbeamProxy.Training.PackedTree
