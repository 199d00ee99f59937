import ShipitInference.Js.Text
import ShipitInference.Js.Number
import ShipitInference.Js.NumberValue
import ShipitInference.Js.Map
import ShipitInference.Json.Value
import ShipitInference.Json.Parse
import ShipitInference.Json.Stringify
import ShipitInference.Json.DeepEqual
import ShipitInference.Json.ParseKeys
import ShipitInference.Json.NumberText
import ShipitInference.Json.RoundTrip
import ShipitInference.Streaming.Basic
import ShipitInference.Streaming.Fragments
import ShipitInference.Streaming.Step
import ShipitInference.Streaming.IndexKeyed
import ShipitInference.Streaming.IdKeyed
import ShipitInference.Infer.Types
import ShipitInference.Infer.Config
import ShipitInference.Infer.Sanitizer
import ShipitInference.Infer.OptimizeText
import ShipitInference.Infer.RateLimit
import ShipitInference.Blueprint.Normalize
import ShipitInference.Infer.Chat
import ShipitInference.Infer.ContentSink
import ShipitInference.Infer.StreamedReply
import ShipitInference.Infer.Native
import ShipitInference.Infer.ToolJson
import ShipitInference.Infer.Run
import ShipitInference.Infer.History
import ShipitInference.Infer.Transcript
import ShipitInference.Planning.TemplateSelector
import ShipitInference.Streaming.Representation
import ShipitInference.Sandbox.Compliance
import ShipitInference.Planning.Blueprint
