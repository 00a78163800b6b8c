import EndpointConsole.BaseUrls
import EndpointConsole.Command
import EndpointConsole.Command.Run
import EndpointConsole.Digest
import EndpointConsole.Encoding.Base64
import EndpointConsole.Encoding.Hex
import EndpointConsole.Encoding.Percent
import EndpointConsole.Encoding.Utf8
import EndpointConsole.Endpoint
import EndpointConsole.Endpoint.Detect
import EndpointConsole.Endpoint.InProject
import EndpointConsole.Files
import EndpointConsole.Files.Path
import EndpointConsole.Glob
import EndpointConsole.Glob.Symbol
import EndpointConsole.History
import EndpointConsole.History.Item
import EndpointConsole.History.Mask
import EndpointConsole.Ignore
import EndpointConsole.Ignore.Rule
import EndpointConsole.Json
import EndpointConsole.Json.Commented
import EndpointConsole.Json.Printer
import EndpointConsole.Json.Record
import EndpointConsole.Json.Token
import EndpointConsole.Json.Typed
import EndpointConsole.Json.Written
import EndpointConsole.Lens.Cache
import EndpointConsole.Lens.Provider
import EndpointConsole.Main
import EndpointConsole.Message
import EndpointConsole.Number.Binary64
import EndpointConsole.Number.Checked
import EndpointConsole.Number.Shortest
import EndpointConsole.Number.Word
import EndpointConsole.Panel
import EndpointConsole.Panel.Inbound
import EndpointConsole.Panel.Outbound
import EndpointConsole.Parameter.Binding
import EndpointConsole.Parameter.Declaration
import EndpointConsole.Parameter.List
import EndpointConsole.Project.BaseUrlCache
import EndpointConsole.Project.Find
import EndpointConsole.Project.LaunchProfile
import EndpointConsole.Proofs.BaseUrls.Attempts
import EndpointConsole.Proofs.BaseUrls.Flushed
import EndpointConsole.Proofs.BaseUrls.Replaced
import EndpointConsole.Proofs.BaseUrls.Sections
import EndpointConsole.Proofs.BaseUrls.Stored
import EndpointConsole.Proofs.Encoding.Percent
import EndpointConsole.Proofs.Encoding.Utf8
import EndpointConsole.Proofs.Endpoint.Beginning
import EndpointConsole.Proofs.Endpoint.CommentLines
import EndpointConsole.Proofs.Endpoint.Layout
import EndpointConsole.Proofs.Endpoint.Reported
import EndpointConsole.Proofs.Endpoint.SignatureLine
import EndpointConsole.Proofs.Endpoint.Transparency
import EndpointConsole.Proofs.Endpoint.WellFormed
import EndpointConsole.Proofs.Files.Beside
import EndpointConsole.Proofs.Files.Leading
import EndpointConsole.Proofs.Files.Plain
import EndpointConsole.Proofs.Files.Renaming
import EndpointConsole.Proofs.Files.Writing
import EndpointConsole.Proofs.History.BrokenBody
import EndpointConsole.Proofs.History.FormBody
import EndpointConsole.Proofs.History.Lists
import EndpointConsole.Proofs.History.MaskedBody
import EndpointConsole.Proofs.History.MaskedValue
import EndpointConsole.Proofs.History.Outages
import EndpointConsole.Proofs.History.Pruning
import EndpointConsole.Proofs.History.Recent
import EndpointConsole.Proofs.History.Reload
import EndpointConsole.Proofs.History.Retention
import EndpointConsole.Proofs.History.Stored
import EndpointConsole.Proofs.History.TokenPair
import EndpointConsole.Proofs.Json.Annotated
import EndpointConsole.Proofs.Json.Commented
import EndpointConsole.Proofs.Json.Indented
import EndpointConsole.Proofs.Json.LineBreaks
import EndpointConsole.Proofs.Json.Members
import EndpointConsole.Proofs.Json.Numeral
import EndpointConsole.Proofs.Json.Printed
import EndpointConsole.Proofs.Json.Unquoted
import EndpointConsole.Proofs.Json.Within
import EndpointConsole.Proofs.Json.Words
import EndpointConsole.Proofs.Lens.AtOnce
import EndpointConsole.Proofs.Lens.ByTimer
import EndpointConsole.Proofs.Lens.Debounce
import EndpointConsole.Proofs.Lens.Eviction
import EndpointConsole.Proofs.Lens.Expired
import EndpointConsole.Proofs.Lens.Recency
import EndpointConsole.Proofs.Lens.Sections
import EndpointConsole.Proofs.Lens.Service
import EndpointConsole.Proofs.Lens.Service.Own
import EndpointConsole.Proofs.Lens.Timers
import EndpointConsole.Proofs.Panel.Handling
import EndpointConsole.Proofs.Parameter.Breaks
import EndpointConsole.Proofs.Parameter.Literals
import EndpointConsole.Proofs.Parameter.Opacity
import EndpointConsole.Proofs.Parameter.Positions
import EndpointConsole.Proofs.Parameter.Recovered
import EndpointConsole.Proofs.Parameter.Sources
import EndpointConsole.Proofs.Parameter.Spacing
import EndpointConsole.Proofs.Project.Changes
import EndpointConsole.Proofs.Project.Coherence
import EndpointConsole.Proofs.Project.LastWord
import EndpointConsole.Proofs.Project.Owner
import EndpointConsole.Proofs.Project.Remembered
import EndpointConsole.Proofs.Project.Sections
import EndpointConsole.Proofs.Request.Consumed
import EndpointConsole.Proofs.Request.Detected
import EndpointConsole.Proofs.Request.Filling
import EndpointConsole.Proofs.Request.Masking
import EndpointConsole.Proofs.Request.Query
import EndpointConsole.Proofs.Request.Received
import EndpointConsole.Proofs.Route.Marks
import EndpointConsole.Proofs.Route.Placeholders
import EndpointConsole.Proofs.Route.Remembered
import EndpointConsole.Proofs.Route.Searches
import EndpointConsole.Proofs.Route.Substitution
import EndpointConsole.Proofs.Server.Answers
import EndpointConsole.Proofs.Server.Conversation
import EndpointConsole.Proofs.Server.Interleaved.Refreshes
import EndpointConsole.Proofs.Server.Panels
import EndpointConsole.Proofs.Text.Cutting
import EndpointConsole.Proofs.Text.LowerCase
import EndpointConsole.Proofs.Text.Marks
import EndpointConsole.Proofs.Text.Spacing
import EndpointConsole.Proofs.Text.Trimming
import EndpointConsole.Request.Authorization
import EndpointConsole.Request.Http
import EndpointConsole.Request.Payload
import EndpointConsole.Request.Target
import EndpointConsole.Route.Compose
import EndpointConsole.Route.Placeholder
import EndpointConsole.Route.Version
import EndpointConsole.Server
import EndpointConsole.Server.Envelope
import EndpointConsole.Session
import EndpointConsole.Session.Surroundings
import EndpointConsole.Settings
import EndpointConsole.Sorted
import EndpointConsole.Source.Attribute
import EndpointConsole.Source.ClassHeader
import EndpointConsole.Source.Comment
import EndpointConsole.Source.Document
import EndpointConsole.Source.Signature
import EndpointConsole.Source.Stored
import EndpointConsole.Storage
import EndpointConsole.Storage.Database
import EndpointConsole.Text
import EndpointConsole.Text.Bytes
import EndpointConsole.Text.LowerCase
import EndpointConsole.Text.Search
import EndpointConsole.Text.Word
import EndpointConsole.Url
import EndpointConsole.Url.Host
import EndpointConsole.Watch
import EndpointConsole.Workspace
import EndpointConsole.Proofs.Json.Nesting
import EndpointConsole.Proofs.Server.Output
import EndpointConsole.Proofs.Server.Routing
import EndpointConsole.Proofs.Settings.Layers
import EndpointConsole.Proofs.Settings.Derived
import EndpointConsole.Proofs.Storage.Agreement
import EndpointConsole.Proofs.Source.CommentMarks
import EndpointConsole.Proofs.Encoding.Base64
import EndpointConsole.Proofs.Request.Prepared
import EndpointConsole.Proofs.Files.Keys
import EndpointConsole.Proofs.History.Buckets
import EndpointConsole.Proofs.Url.Host
import EndpointConsole.Proofs.Url.Written
import EndpointConsole.Proofs.Project.Addresses
import EndpointConsole.Proofs.Message.Arguments
import EndpointConsole.Proofs.Parameter.Parentheses
import EndpointConsole.Proofs.Text.Bytes
import EndpointConsole.Proofs.Text.Replacing
