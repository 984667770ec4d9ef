import LogBridge.Bridge.Conversion
import LogBridge.Bridge.Sugared

/-!
# The span gate and the zap level

Every entry point reaches the span through `Logger.log`, behind two gates of the bridge's own:
the level must be at `minLevel` or above, and the span must record. `zap.IncreaseLevel` given
to `WithOptions` raises the level of the zap loggers and leaves `minLevel` as it was, so between
the two levels a call adds the event while zap writes no record.

The call still ends as the terminal hook of its level says: `check` attaches the hook whether
or not a core takes the entry, so a `Panic` call below the raised level panics all the same.
-/

namespace LogBridge

end LogBridge
