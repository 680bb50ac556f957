import Jib.ExclusiveThreads
import Jib.QuickJSThreads
import Jib.JSCThreads
import Jib.JSCReleases
import Jib.JSCStrings
import Jib.JSCProtections
import Jib.NestedOperations
import Jib.LookupNames
import Jib.ParenthesizedScripts
import Jib.QuickJSOwnership
import Jib.FunctionArguments
import Jib.JSCIndependence
import Jib.FailureSignals
import Jib.ValueReadings
import Jib.VisibleSets
import Jib.PassedAlike
import Jib.QuickJSArrays
import Jib.JsonReadings
import Jib.SharedHitches
import Jib.QuickJSTemporaries
import Jib.QuickJSRuntimeEnds
import Jib.QuickJSAtomRuns
