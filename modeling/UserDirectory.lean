import UserDirectory.Attributes.Normalizer
import UserDirectory.Attributes.Serializer
import UserDirectory.Attributes.Source
import UserDirectory.Attributes.Timestamp
import UserDirectory.Cache.Key
import UserDirectory.Cache.Ttl
import UserDirectory.Client.Directory
import UserDirectory.Client.Http
import UserDirectory.Client.InMemory
import UserDirectory.Client.Scopes
import UserDirectory.Client.Token
import UserDirectory.Command.Arguments
import UserDirectory.Command.Run
import UserDirectory.Config.Basic
import UserDirectory.Config.File
import UserDirectory.Config.Json
import UserDirectory.Config.Placeholder
import UserDirectory.Config.Validate
import UserDirectory.Connector.Basic
import UserDirectory.Connector.Events
import UserDirectory.Connector.Operations
import UserDirectory.Connector.Search
import UserDirectory.Connector.Settings
import UserDirectory.Connector.Signing
import UserDirectory.Decimal.Binary64
import UserDirectory.Decimal.Power
import UserDirectory.Decimal.Shortest
import UserDirectory.Digest.Sha256
import UserDirectory.Filter.Basic
import UserDirectory.Filter.Compile
import UserDirectory.Filter.Reader
import UserDirectory.Json.Basic
import UserDirectory.Json.Fields
import UserDirectory.Json.Printer
import UserDirectory.Json.Reader
import UserDirectory.Json.Traversal
import UserDirectory.Log.Event
import UserDirectory.Log.Filter
import UserDirectory.Main
import UserDirectory.Mapping.Basic
import UserDirectory.Mapping.Resolve
import UserDirectory.Proofs.Attributes.Dates
import UserDirectory.Proofs.Attributes.Enforced
import UserDirectory.Proofs.Attributes.Outbound
import UserDirectory.Proofs.Attributes.Overlaps
import UserDirectory.Proofs.Attributes.Precedence
import UserDirectory.Proofs.Attributes.Projection
import UserDirectory.Proofs.Attributes.RoundTrip
import UserDirectory.Proofs.Attributes.Timestamps
import UserDirectory.Proofs.Cache.Answers
import UserDirectory.Proofs.Cache.Entries
import UserDirectory.Proofs.Cache.Histories
import UserDirectory.Proofs.Cache.Keys
import UserDirectory.Proofs.Client.Addresses
import UserDirectory.Proofs.Config.Placeholders
import UserDirectory.Proofs.Connector.Accepted
import UserDirectory.Proofs.Connector.Addressees
import UserDirectory.Proofs.Connector.Courses
import UserDirectory.Proofs.Connector.Deletions
import UserDirectory.Proofs.Connector.Dialogue
import UserDirectory.Proofs.Connector.Handles
import UserDirectory.Proofs.Connector.Ids
import UserDirectory.Proofs.Connector.Permissions
import UserDirectory.Proofs.Connector.Sweeps
import UserDirectory.Proofs.Connector.Tokens
import UserDirectory.Proofs.Connector.Updates
import UserDirectory.Proofs.Filter.Acceptance
import UserDirectory.Proofs.Filter.Depth
import UserDirectory.Proofs.Filter.Grammar
import UserDirectory.Proofs.Filter.Losses
import UserDirectory.Proofs.Filter.Names
import UserDirectory.Proofs.Filter.Parts
import UserDirectory.Proofs.Filter.Phrases
import UserDirectory.Proofs.Filter.Pieces
import UserDirectory.Proofs.Filter.Reading
import UserDirectory.Proofs.Filter.Reports
import UserDirectory.Proofs.Filter.Visits
import UserDirectory.Proofs.Json.Nodes
import UserDirectory.Proofs.Json.Offers
import UserDirectory.Proofs.Json.Printed
import UserDirectory.Proofs.Json.Renamed
import UserDirectory.Proofs.Json.Reordered
import UserDirectory.Proofs.Json.Replacements
import UserDirectory.Proofs.Json.Steps
import UserDirectory.Proofs.Json.Visits
import UserDirectory.Proofs.Mapping.Directions
import UserDirectory.Proofs.Mapping.Duplicates
import UserDirectory.Proofs.Mapping.Inverse
import UserDirectory.Proofs.Mapping.Names
import UserDirectory.Proofs.Mapping.Resolved
import UserDirectory.Proofs.Query.Formula
import UserDirectory.Proofs.Query.Grammar
import UserDirectory.Proofs.Query.Meaning
import UserDirectory.Proofs.Query.Prefix
import UserDirectory.Proofs.Query.Terms
import UserDirectory.Proofs.Query.Units
import UserDirectory.Proofs.Record.Commuting
import UserDirectory.Proofs.Record.Copies
import UserDirectory.Proofs.Record.Extractions
import UserDirectory.Proofs.Record.Lenses
import UserDirectory.Proofs.Record.MergedPaths
import UserDirectory.Proofs.Record.Merges
import UserDirectory.Proofs.Record.Paths
import UserDirectory.Proofs.Record.WellFormed
import UserDirectory.Proofs.Results
import UserDirectory.Proofs.Search.Bundles
import UserDirectory.Proofs.Search.Collisions
import UserDirectory.Proofs.Search.Depth
import UserDirectory.Proofs.Search.Isolation
import UserDirectory.Proofs.Search.Layers
import UserDirectory.Proofs.Search.Nesting
import UserDirectory.Proofs.Search.Renaming
import UserDirectory.Proofs.Search.Reordering
import UserDirectory.Proofs.Search.Scopes
import UserDirectory.Proofs.Table
import UserDirectory.Proofs.Text.Bytes
import UserDirectory.Proofs.Text.Numerals
import UserDirectory.Proofs.Time.Dates
import UserDirectory.Proofs.Time.Rfc3339
import UserDirectory.Proofs.Url.Segments
import UserDirectory.Record.Extract
import UserDirectory.Record.Path
import UserDirectory.Search.Bundle
import UserDirectory.Search.Merge
import UserDirectory.Search.Order
import UserDirectory.Table
import UserDirectory.Text.Alphanumeric
import UserDirectory.Text.Blank
import UserDirectory.Text.Bytes
import UserDirectory.Text.Debug
import UserDirectory.Text.Lines
import UserDirectory.Text.Lowercase
import UserDirectory.Text.Numeral
import UserDirectory.Time.Date
import UserDirectory.Time.Instant
import UserDirectory.Time.Rfc3339
import UserDirectory.Toml.Document
import UserDirectory.Toml.Reader
import UserDirectory.Toml.Scalar
import UserDirectory.Toml.Text
import UserDirectory.Url.Basic
import UserDirectory.Url.Host
import UserDirectory.Url.Percent
import UserDirectory.Url.Punycode
import UserDirectory.Url.Reader
