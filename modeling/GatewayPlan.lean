import GatewayPlan.Main
import GatewayPlan.Proofs.Config.Expansion
import GatewayPlan.Proofs.Config.Protection
import GatewayPlan.Proofs.Config.UpstreamKey
import GatewayPlan.Proofs.ConfigFile
import GatewayPlan.Proofs.Logged
import GatewayPlan.Proofs.Mapping.Clash
import GatewayPlan.Proofs.Mapping.Distinct
import GatewayPlan.Proofs.Mapping.Faithful
import GatewayPlan.Proofs.Mapping.Lossless
import GatewayPlan.Proofs.Route.Plan
import GatewayPlan.Proofs.Config.Assembly
import GatewayPlan.Proofs.Config.Settings
import GatewayPlan.Proofs.Config.Supply
import GatewayPlan.Proofs.Mapping.Relaxed
import GatewayPlan.Proofs.CommandLine.Params
import GatewayPlan.Proofs.Template.Grammar
import GatewayPlan.Proofs.Route.Demands
import GatewayPlan.Proofs.Route.Proxy
import GatewayPlan.Proofs.CommandLine.Compile
import GatewayPlan.Proofs.Template.Trim
import GatewayPlan.Proofs.Url.Marks
import GatewayPlan.Proofs.Url.Sound
import GatewayPlan.Proofs.Url.Appended
import GatewayPlan.Proofs.Route.Upstream
import GatewayPlan.Proofs.Mapping.Blame
import GatewayPlan.Proofs.Route.Mount
import GatewayPlan.Proofs.Codec.Method
import GatewayPlan.Proofs.Tree.Entries
import GatewayPlan.Proofs.Codec.Parameter
