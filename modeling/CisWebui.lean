import CisWebui.Base64Standard
import CisWebui.FsCacheCreations
import CisWebui.FsCacheListings
import CisWebui.FsCacheReloads
import CisWebui.Multipart.MessageCalls
import CisWebui.Multipart.Malformed
import CisWebui.Multipart.Transfers
import CisWebui.Multipart.Modes
import CisWebui.Multipart.FileErrors
import CisWebui.Multipart.Positions
import CisWebui.Multipart.ContentTypes
import CisWebui.Http.WebhooksHandler
import CisWebui.Http.WebhookQueries
import CisWebui.Http.QueryPairs
import CisWebui.Http.JobArguments
import CisWebui.Http.Escaping
import CisWebui.Http.Confinement
import CisWebui.Http.Cookies
import CisWebui.Http.DownloadLinks
import CisWebui.Net.BackPressure
import CisWebui.Net.CloseHandlers
import CisWebui.Net.Pings
import CisWebui.Net.SendOrder
import CisWebui.Websocket.Anonymous
import CisWebui.Websocket.PathConfinement
import CisWebui.Websocket.Privilege
import CisWebui.Websocket.ProjectRuns
import CisWebui.Websocket.Replies
import CisWebui.Websocket.Logins
import CisWebui.Websocket.PermissionBatches
import CisWebui.Websocket.Creations
import CisWebui.Cis.CoreConnections
import CisWebui.Cis.CronRecords
import CisWebui.Cis.Delivery
import CisWebui.Cis.Endings
import CisWebui.Cis.JobRun
import CisWebui.Cis.ProjectRefresh
import CisWebui.Database.SettingPermissions
import CisWebui.Database.TokenHistory
import CisWebui.Cis.JobConf
import CisWebui.Foundation.StableSort
import CisWebui.Websocket.BuildOrder
import CisWebui.Multipart.MachineSearcher
import CisWebui.Multipart.MachineParser
import CisWebui.Multipart.HeldBytes
import CisWebui.BoundTaskChain
import CisWebui.Websocket.MediatedHandlers
import CisWebui.Http.Serving
import CisWebui.Http.Application
import CisWebui.Websocket.AccountService
import CisWebui.Websocket.Authenticity
