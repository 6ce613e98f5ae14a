import ServletContainer.Application.Basic
import ServletContainer.Application.Deployment
import ServletContainer.Application.ErrorPages
import ServletContainer.Application.Resources
import ServletContainer.Connection
import ServletContainer.Dispatch.Chain
import ServletContainer.Dispatch.ErrorPage
import ServletContainer.Dispatch.FilterMapping
import ServletContainer.Dispatch.Serve
import ServletContainer.Dispatch.Target
import ServletContainer.Exchange.Basic
import ServletContainer.Exchange.Extensions
import ServletContainer.Exchange.Program
import ServletContainer.Failure
import ServletContainer.Host
import ServletContainer.Http.Headers
import ServletContainer.Http.Method
import ServletContainer.Http.Request
import ServletContainer.Http.RequestHead
import ServletContainer.Http.Response
import ServletContainer.Http.Status
import ServletContainer.Routing.MappingTable
import ServletContainer.Routing.Pattern
import ServletContainer.Script
import ServletContainer.Security.BasicAuth
import ServletContainer.Security.Guard
import ServletContainer.Security.Identity
import ServletContainer.Server.Address
import ServletContainer.Server.Files
import ServletContainer.Server.Pem
import ServletContainer.Server.Settings
import ServletContainer.Server.Start
import ServletContainer.Session.Config
import ServletContainer.Session.Cookie
import ServletContainer.Session.Identifier
import ServletContainer.Session.PathParameters
import ServletContainer.Session.Store
import ServletContainer.Table
import ServletContainer.Text.Base64
import ServletContainer.Text.Blank
import ServletContainer.Text.Hidden
import ServletContainer.Text.Numeral
import ServletContainer.Text.Quoted
import ServletContainer.Text.Split
import ServletContainer.Text.Utf8
import ServletContainer.Toml.Document
import ServletContainer.Toml.Lexical
import ServletContainer.Value
import ServletContainer.Proofs.Routing.Coverage
import ServletContainer.Proofs.Routing.Precedence
import ServletContainer.Proofs.Response.Calls
import ServletContainer.Proofs.Response.Wire
import ServletContainer.Proofs.Http.HeadReading
import ServletContainer.Proofs.Dispatch.Jumps
import ServletContainer.Proofs.Dispatch.Frame
import ServletContainer.Proofs.Dispatch.Restore
import ServletContainer.Proofs.Dispatch.Serving
import ServletContainer.Proofs.Session.Calls
import ServletContainer.Proofs.Session.Life
import ServletContainer.Proofs.Session.Runs
import ServletContainer.Proofs.Session.Sweeping
import ServletContainer.Proofs.Session.Drawn
import ServletContainer.Proofs.Host
import ServletContainer.Proofs.Security.Protection
import ServletContainer.Proofs.Exchange.Steps
import ServletContainer.Proofs.Exchange.Effects
import ServletContainer.Proofs.Dispatch.Carried
import ServletContainer.Proofs.Dispatch.Fallback
import ServletContainer.Proofs.Dispatch.ErrorOnce
import ServletContainer.Proofs.Response.Delivery
import ServletContainer.Proofs.Response.Locked
import ServletContainer.Proofs.Host.Calls
import ServletContainer.Proofs.Host.Lookup
import ServletContainer.Proofs.Host.Published
import ServletContainer.Proofs.Application.Lifecycle
import ServletContainer.Proofs.Http.CookieField
import ServletContainer.Proofs.Session.CookiePair
import ServletContainer.Proofs.Exchange.SessionCookie
import ServletContainer.Proofs.Dispatch.Inclusion
import ServletContainer.Proofs.Dispatch.Places
import ServletContainer.Proofs.Dispatch.Invocations
import ServletContainer.Proofs.Dispatch.Lasting
import ServletContainer.Proofs.Dispatch.Nesting
import ServletContainer.Proofs.Security.Login
import ServletContainer.Proofs.Dispatch.Sessions
import ServletContainer.Proofs.Security.Fixation
import ServletContainer.Proofs.Application.Mapped
import ServletContainer.Proofs.Dispatch.Requests
import ServletContainer.Proofs.Security.Denial
import ServletContainer.Proofs.Connection.Admission
import ServletContainer.Proofs.Http.RoundTrip
import ServletContainer.Proofs.Http.HeadEnd
import ServletContainer.Proofs.Dispatch.Unread
import ServletContainer.Proofs.Connection.OneRequest
import ServletContainer.Proofs.Host.Routed
import ServletContainer.Proofs.Host.Issued
import ServletContainer.Proofs.Session.Parameters
import ServletContainer.Proofs.Exchange.SessionUrl
import ServletContainer.Proofs.Host.EncodedUrl
import ServletContainer.Proofs.Dispatch.Chains
import ServletContainer.Proofs.Response.Splitting
import ServletContainer.Proofs.Text.Base64
import ServletContainer.Proofs.Security.Credentials
import ServletContainer.Proofs.Dispatch.ErrorPages
import ServletContainer.Proofs.Dispatch.Outline
import ServletContainer.Proofs.Dispatch.Order
import ServletContainer.Proofs.Dispatch.Attributes
import ServletContainer.Proofs.Session.Newness
import ServletContainer.Proofs.Exchange.MadeCalls
import ServletContainer.Proofs.Dispatch.MadeCalls
import ServletContainer.Proofs.Host.NewSessions
import ServletContainer.Proofs.Text.Numeral
import ServletContainer.Proofs.Http.Body
import ServletContainer.Proofs.Response.StatusLine
import ServletContainer.Proofs.Dispatch.Shown
import ServletContainer.Proofs.Dispatch.Resources
import ServletContainer.Proofs.Dispatch.ErrorServlet
import ServletContainer.Proofs.Session.Cookies
import ServletContainer.Proofs.Session.Targets
import ServletContainer.Proofs.Session.Asked
import ServletContainer.Proofs.Dispatch.Origin
import ServletContainer.Proofs.Host.Asked
import ServletContainer.Proofs.Routing.Shapes
import ServletContainer.Proofs.Application.Declarations
import ServletContainer.Proofs.Dispatch.Missing
import ServletContainer.Proofs.Application.WellFormed
import ServletContainer.Proofs.Routing.Meaning
import ServletContainer.Proofs.Routing.Texts
import ServletContainer.Proofs.Host.ContextPaths
import ServletContainer.Proofs.Dispatch.DefaultText
import ServletContainer.Proofs.Session.Apart
import ServletContainer.Proofs.Http.HeadTexts
import ServletContainer.Proofs.Host.Echo
