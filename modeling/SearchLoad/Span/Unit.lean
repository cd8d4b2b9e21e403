namespace SearchLoad.Span

inductive TimeUnit
  | nanosecond
  | microsecond
  | millisecond
  | second
  | minute
  | hour
  | day
  | week
  | month
  | year
deriving DecidableEq, Repr

namespace TimeUnit

def names : TimeUnit → List String
  | nanosecond => ["nanos", "nsec", "ns"]
  | microsecond => ["usec", "us", "µs"]
  | millisecond => ["millis", "msec", "ms"]
  | second => ["seconds", "second", "secs", "sec", "s"]
  | minute => ["minutes", "minute", "min", "mins", "m"]
  | hour => ["hours", "hour", "hr", "hrs", "h"]
  | day => ["days", "day", "d"]
  | week => ["weeks", "week", "wk", "wks", "w"]
  | month => ["months", "month", "M"]
  | year => ["years", "year", "yr", "yrs", "y"]

def all : List TimeUnit :=
  [nanosecond, microsecond, millisecond, second, minute, hour, day, week, month, year]

def ofName? (name : String) : Option TimeUnit := all.find? fun u => u.names.contains name

/-- The length of a unit: nanoseconds below a second, else seconds. -/
inductive Length
  | nanos (n : Nat)
  | seconds (n : Nat)
deriving DecidableEq, Repr

def length : TimeUnit → Length
  | nanosecond => .nanos 1
  | microsecond => .nanos 1000
  | millisecond => .nanos 1000000
  | second => .seconds 1
  | minute => .seconds 60
  | hour => .seconds 3600
  | day => .seconds 86400
  | week => .seconds 604800
  | month => .seconds 2630016
  | year => .seconds 31557600

/-- The length that fractions are taken of: nanoseconds up to a minute, seconds beyond. A
nanosecond has no fractions. -/
def fractionLength : TimeUnit → Option Length
  | nanosecond => none
  | microsecond => some (.nanos 1000)
  | millisecond => some (.nanos 1000000)
  | second => some (.nanos 1000000000)
  | minute => some (.nanos 60000000000)
  | u => some u.length

end TimeUnit

end SearchLoad.Span
