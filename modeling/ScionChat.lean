import ScionChat.Lib.TransitionSystem
import ScionChat.Lib.Linearization
import ScionChat.Lib.Interleaving
import ScionChat.Lib.Histories
import ScionChat.Lib.Observed
import ScionChat.Lib.Interrupted
import ScionChat.Lib.Fallible
import ScionChat.Lib.KeyedLog
import ScionChat.Lib.LogReader
import ScionChat.Lib.Gapless
import ScionChat.Lib.Cached
import ScionChat.Lib.Pacing
import ScionChat.Lib.Sections
import ScionChat.Lib.Years
import ScionChat.Lib.IpAddr
import ScionChat.Lib.Url
import ScionChat.Lib.Json
import ScionChat.Lib.JsonReader
import ScionChat.Core.V1
import ScionChat.Core.Serde
import ScionChat.Core.Json
import ScionChat.Core.Wire
import ScionChat.Server.Store.Tables
import ScionChat.Server.Store.Sqlite
import ScionChat.Server.Store.Valid
import ScionChat.Server.Store.Operations
import ScionChat.Server.Store.Pages
import ScionChat.Server.Store.Opening
import ScionChat.Server.Store.Log
import ScionChat.Server.Store.Walks
import ScionChat.Server.Store.Concurrent
import ScionChat.Server.Store.Timestamps
import ScionChat.Server.Store.Linearizable
import ScionChat.Server.Store.Readers
import ScionChat.Server.Auth
import ScionChat.Server.Api
import ScionChat.Server.Api.Handlers
import ScionChat.Server.Api.Contract
import ScionChat.Server.Api.Sessions
import ScionChat.Server.Host
import ScionChat.Server.Api.Moments
import ScionChat.Server.Api.Bodies
import ScionChat.Server.Api.Carried
import ScionChat.Server.Api.Envelope
import ScionChat.Server.Api.Messages
import ScionChat.Server.Api.Sizes
import ScionChat.Server.Expiry
import ScionChat.Server.Spellings
import ScionChat.Server.Secret
import ScionChat.Server.Cert
import ScionChat.Client.Error
import ScionChat.Client.Transport
import ScionChat.Client.Exchange
import ScionChat.Client.Session
import ScionChat.Client.Mobile
import ScionChat.Client.Paging
import ScionChat.Client.Feed
import ScionChat.Client.Pacing
import ScionChat.Client.Replies
import ScionChat.Client.Network
import ScionChat.Client.Outcomes
import ScionChat.Mobile.Room
import ScionChat.Mobile.Android
import ScionChat.Mobile.Ios
import ScionChat.Mobile.ChatRows
import ScionChat.Mobile.Runs
import ScionChat.Mobile.DayLabels
import ScionChat.Mobile.Sending
import ScionChat.Mobile.Unread
import ScionChat.Terminal.Input
import ScionChat.Terminal.SignIn
import ScionChat.Terminal.Chat
import ScionChat.Terminal.Connection
import ScionChat.Terminal.App
import ScionChat.Terminal.Calls
import ScionChat.Terminal.Typing
import ScionChat.Terminal.Pane
import ScionChat.Terminal.Unread
import ScionChat.Terminal.View
import ScionChat.Terminal.Columns
import ScionChat.Dev.Profiles
import ScionChat.Deployment.Run
import ScionChat.Deployment.Calls
import ScionChat.Deployment.History
import ScionChat.Deployment.Delivery
import ScionChat.Deployment.Sessions
import ScionChat.Deployment.Errors
