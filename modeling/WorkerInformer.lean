import WorkerInformer.TemplateFile
import WorkerInformer.Redirect
import WorkerInformer.Failures
import WorkerInformer.Freshness
import WorkerInformer.Delivery
import WorkerInformer.VisitorSession
import WorkerInformer.ServerStart
import WorkerInformer.PageData
import WorkerInformer.JsonReader
import WorkerInformer.WholeTexts
import WorkerInformer.CatchingUp
import WorkerInformer.Progress
import WorkerInformer.Lagging
import WorkerInformer.Service
import WorkerInformer.CgiService
import WorkerInformer.HeaderBlock
import WorkerInformer.RetargetingAge
import WorkerInformer.CheckPath
import WorkerInformer.TeaserRotation
import WorkerInformer.ClickLink
import WorkerInformer.Base64Url
import WorkerInformer.StatusRates
import WorkerInformer.UrlCursor
import WorkerInformer.ClassTallies
import WorkerInformer.MinifiedText
import WorkerInformer.Backtracking
import WorkerInformer.MinifyHtml
import WorkerInformer.SchemaFile
import WorkerInformer.CleanOperations
import WorkerInformer.PostBody
import WorkerInformer.VisitorCookie
import WorkerInformer.QuerySegments
import WorkerInformer.PercentDecode
import WorkerInformer.Restart
import WorkerInformer.MalformedDocuments
import WorkerInformer.InformerRemove
import WorkerInformer.CoreProcess
import WorkerInformer.ExcludeReports
import WorkerInformer.TeaserPaging
import WorkerInformer.TeaserPage
import WorkerInformer.ShippedHistory
import WorkerInformer.HistoryRoundTrip
import WorkerInformer.HistoryCalls
import WorkerInformer.Runs
import WorkerInformer.Bytes
import WorkerInformer.ProcessMQ
import WorkerInformer.KeyMap
import WorkerInformer.UserHistory
import WorkerInformer.Frames
import WorkerInformer.OfferRequests
import WorkerInformer.Json
import WorkerInformer.SqlLexer
import WorkerInformer.SqlParser
import WorkerInformer.Printf
import WorkerInformer.SqlText
import WorkerInformer.InformerTable
import WorkerInformer.Informer
import WorkerInformer.CoreDataBase
import WorkerInformer.UrlParser
import WorkerInformer.Params
import WorkerInformer.SqlStatements
import WorkerInformer.InformerUpdate
import WorkerInformer.SqlFormats
import WorkerInformer.InformerStatements
import WorkerInformer.InformerScope
import WorkerInformer.InformerServed
import WorkerInformer.MainDatabase
import WorkerInformer.Replica
import WorkerInformer.Replication
import WorkerInformer.IntendedEffects
