import Metering.Integer

/-!
This module contains the reading of the clock that metrics are stamped with.
-/

namespace Metering.Clock

/--
The whole milliseconds in a number of nanoseconds since the epoch. A time before the epoch reads as
the epoch, and a time too late for 64 bits as the last millisecond they hold.
-/
def millis (nanoseconds : Int) : Int64 :=
  if nanoseconds < 0 then 0 else Integer.clamp (nanoseconds / 1000000)

end Metering.Clock
