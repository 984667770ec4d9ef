import LogBridge.Go.Value
import LogBridge.Go.Numeric
import LogBridge.Go.Slice
import LogBridge.Zap.Field
import LogBridge.Otel.Span
import LogBridge.Go.Library
import LogBridge.Zap.Logger
import LogBridge.Bridge.AppendField
import LogBridge.Bridge.Logger
import LogBridge.Bridge.Global
import LogBridge.Bridge.Sugared
import LogBridge.Bridge.Derivation
import LogBridge.Bridge.Isolation
import LogBridge.Bridge.Refinement
import LogBridge.Bridge.Conversion
import LogBridge.Bridge.SpanEffects
import LogBridge.Bridge.TraceID
import LogBridge.Bridge.ArrayEncoder
