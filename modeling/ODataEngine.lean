import ODataEngine.CommandLine.Arguments
import ODataEngine.CommandLine.Help
import ODataEngine.CommandLine.Run
import ODataEngine.Edm.Basic
import ODataEngine.Edm.Literal
import ODataEngine.Error
import ODataEngine.Expand.Item
import ODataEngine.Expand.Token
import ODataEngine.Filter.Clause
import ODataEngine.Filter.Document
import ODataEngine.Filter.Predicate
import ODataEngine.Filter.Validation
import ODataEngine.Http.Cors
import ODataEngine.Http.Message
import ODataEngine.Http.Problem
import ODataEngine.Http.Respond
import ODataEngine.Http.Status
import ODataEngine.Http.Uri
import ODataEngine.Json.Basic
import ODataEngine.Json.Order
import ODataEngine.Json.Parser
import ODataEngine.Json.Printer
import ODataEngine.Main
import ODataEngine.Metadata
import ODataEngine.Number.Binary64
import ODataEngine.Number.Shortest
import ODataEngine.Pattern.Basic
import ODataEngine.Pattern.CharSet
import ODataEngine.Pattern.Class
import ODataEngine.Pattern.Escape
import ODataEngine.Pattern.FoldTable
import ODataEngine.Pattern.Machine
import ODataEngine.Pattern.Memo
import ODataEngine.Pattern.Normal
import ODataEngine.Pattern.Octets
import ODataEngine.Pattern.Reader
import ODataEngine.Pattern.Track
import ODataEngine.Pattern.WordTable
import ODataEngine.Proofs.TextTheorems
import ODataEngine.Query.Basic
import ODataEngine.Query.FilterOption
import ODataEngine.Query.Limits
import ODataEngine.Query.LimitsDocument
import ODataEngine.Query.ListOptions
import ODataEngine.Query.Options
import ODataEngine.Route.Key
import ODataEngine.Route.Resolve
import ODataEngine.Route.Site
import ODataEngine.Schema.Basic
import ODataEngine.Schema.Draft
import ODataEngine.Service.Answer
import ODataEngine.Service.Basic
import ODataEngine.Service.Body
import ODataEngine.Service.Entity
import ODataEngine.Service.Reading
import ODataEngine.Service.Writing
import ODataEngine.Settings.Basic
import ODataEngine.Settings.Layers
import ODataEngine.Settings.SchemaSection
import ODataEngine.Settings.Shape
import ODataEngine.Settings.SocketAddress
import ODataEngine.Settings.Value
import ODataEngine.Settings.Variables
import ODataEngine.Store.Basic
import ODataEngine.Store.Order
import ODataEngine.Store.Related
import ODataEngine.Text.Blank
import ODataEngine.Text.Bytes
import ODataEngine.Text.Cut
import ODataEngine.Text.Letters
import ODataEngine.Text.Percent
import ODataEngine.Yaml.Character
import ODataEngine.Yaml.Document
import ODataEngine.Yaml.Node
import ODataEngine.Yaml.Plain
import ODataEngine.Yaml.Printer
import ODataEngine.Yaml.Property
import ODataEngine.Yaml.Scalar
import ODataEngine.Yaml.ScalarText
import ODataEngine.Yaml.Token
import ODataEngine.Proofs.ExpandTheorems
import ODataEngine.Proofs.ResultTheorems
import ODataEngine.Proofs.DraftTheorems
import ODataEngine.Proofs.SchemaTheorems
import ODataEngine.Proofs.RegistryTheorems
import ODataEngine.Proofs.OptionTheorems
import ODataEngine.Proofs.QueryTheorems
import ODataEngine.Proofs.DocumentTheorems
import ODataEngine.Proofs.FaultTheorems
import ODataEngine.Proofs.RecordTheorems
import ODataEngine.Proofs.StoreTheorems
import ODataEngine.Proofs.RunTheorems
import ODataEngine.Proofs.FailureTheorems
import ODataEngine.Proofs.NavigationTheorems
import ODataEngine.Proofs.LiteralTheorems
import ODataEngine.Proofs.KeyTheorems
import ODataEngine.Proofs.EntityRouteTheorems
import ODataEngine.Proofs.PlaceTheorems
import ODataEngine.Proofs.RenderTheorems
import ODataEngine.Proofs.PredicateTheorems
import ODataEngine.Proofs.FilterDocumentTheorems
import ODataEngine.Proofs.ShownTheorems
import ODataEngine.Proofs.EntityViewTheorems
import ODataEngine.Proofs.KeyMapTheorems
import ODataEngine.Proofs.PercentTheorems
import ODataEngine.Proofs.RoundingTheorems
import ODataEngine.Proofs.ShortestTheorems
import ODataEngine.Proofs.FloatTextTheorems
import ODataEngine.Proofs.KeyAddressTheorems
import ODataEngine.Proofs.LocationTheorems
import ODataEngine.Proofs.WellFormedTheorems
import ODataEngine.Proofs.AddressTheorems
import ODataEngine.Proofs.LimitsTheorems
import ODataEngine.Proofs.CauseTheorems
import ODataEngine.Proofs.SortOrderTheorems
import ODataEngine.Proofs.RowOrderTheorems
import ODataEngine.Proofs.BodyTheorems
import ODataEngine.Proofs.GivenKeyTheorems
import ODataEngine.Proofs.RewriteTheorems
import ODataEngine.Proofs.PageTheorems
import ODataEngine.Proofs.RelatedTheorems
import ODataEngine.Proofs.NextKeyTheorems
import ODataEngine.Proofs.SpanTheorems
import ODataEngine.Proofs.FilterFormTheorems
import ODataEngine.Proofs.FilterTextTheorems
import ODataEngine.Proofs.TrackTheorems
import ODataEngine.Proofs.EscapedTextTheorems
import ODataEngine.Proofs.FilterCallTheorems
import ODataEngine.Proofs.FilterValueTheorems
import ODataEngine.Proofs.OptionOrderTheorems
import ODataEngine.Proofs.QuotedKeyTheorems
import ODataEngine.Proofs.CollectionOrderTheorems
import ODataEngine.Proofs.OperationRouteTheorems
import ODataEngine.Proofs.DescriptionTheorems
import ODataEngine.Proofs.MetadataTheorems
import ODataEngine.Proofs.FieldNameTheorems
import ODataEngine.Proofs.SeedTheorems
import ODataEngine.Proofs.ExpandDepthTheorems
import ODataEngine.Proofs.SliceTheorems
import ODataEngine.Proofs.OffsetReaderTheorems
