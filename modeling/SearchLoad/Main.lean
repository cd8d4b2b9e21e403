import SearchLoad.Live.LoadTest
import SearchLoad.Program

open SearchLoad Std.Async

def variableNames : List String :=
  ["REDIS_ADDRS", "REDIS_PASSWORD", "REDISEARCH_ADDRS", "REDISEARCH_PASSWORD"]

def hostWorld : IO (Program.World Async) := do
  let journal ← Live.Journal.create (← IO.getEnv "RUST_LOG")
  let values ← variableNames.mapM fun name => do return (name, ← IO.getEnv name)
  return {
    lookup := fun name => (values.find? fun v => v.1 = name).bind Prod.snd
    network := Live.network journal
    source := fun path => Live.readSource path
    createLog := fun path => journal.redirect path
    test := Live.runTest journal }

def main (arguments : List String) : IO UInt32 := do
  let world ← hostWorld
  let ending ← (Program.start world arguments).block
  IO.print ending.output
  IO.eprint ending.errors
  return ending.status.toUInt32
