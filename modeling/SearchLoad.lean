import SearchLoad.Command
import SearchLoad.CommandLine.Flag
import SearchLoad.CommandLine.Help
import SearchLoad.CommandLine.Invocation
import SearchLoad.CommandLine.Parse
import SearchLoad.CommandLine.Similarity
import SearchLoad.CommandLine.Stop
import SearchLoad.Connection.Basic
import SearchLoad.Connection.Setup
import SearchLoad.Corpus.Basic
import SearchLoad.Corpus.Dataset
import SearchLoad.Corpus.Record
import SearchLoad.Dataset.Document
import SearchLoad.Dataset.Load
import SearchLoad.Dataset.Source
import SearchLoad.Endpoint.Basic
import SearchLoad.Endpoint.Ipv6
import SearchLoad.Endpoint.Locator
import SearchLoad.Endpoint.Percent
import SearchLoad.Json.Fault
import SearchLoad.Json.Number
import SearchLoad.Json.Scan
import SearchLoad.Json.Value
import SearchLoad.Live.Journal
import SearchLoad.Live.LoadTest
import SearchLoad.Live.Tcp
import SearchLoad.Log
import SearchLoad.Main
import SearchLoad.Number.Binary64
import SearchLoad.Number.Digits
import SearchLoad.Number.Integer
import SearchLoad.Number.Literal
import SearchLoad.Profile.Basic
import SearchLoad.Profile.Stage
import SearchLoad.Program
import SearchLoad.Run.Controller
import SearchLoad.Run.Fleet
import SearchLoad.Run.User
import SearchLoad.Sampling.Draw
import SearchLoad.Sampling.Generator
import SearchLoad.Sampling.Sampler
import SearchLoad.Settings
import SearchLoad.Span.Basic
import SearchLoad.Span.Items
import SearchLoad.Span.Text
import SearchLoad.Span.Unit
import SearchLoad.Stats.Basic
import SearchLoad.Stats.Report
import SearchLoad.Text.Blank
import SearchLoad.Text.Plain
import SearchLoad.Text.Quoted
import SearchLoad.Text.Utf8
import SearchLoad.Wire.Failure
import SearchLoad.Wire.Inbox
import SearchLoad.Wire.Malformation
import SearchLoad.Wire.Reader
import SearchLoad.Wire.Reply
import SearchLoad.Proofs.Fallible
import SearchLoad.Proofs.Run.Fleet
import SearchLoad.Proofs.Run.Schedule
import SearchLoad.Proofs.Run.VirtualClock
import SearchLoad.Proofs.Run.Course
import SearchLoad.Proofs.Run.Record
import SearchLoad.Proofs.Run.Accounting
import SearchLoad.Proofs.Corpus.Words
import SearchLoad.Proofs.Sampling.Queries
import SearchLoad.Proofs.Run.Commands
import SearchLoad.Proofs.Number.Decimal
import SearchLoad.Proofs.Span.Spelling
import SearchLoad.Proofs.Span.Reading
import SearchLoad.Proofs.Span.Sums
import SearchLoad.Proofs.Span.Parts
import SearchLoad.Proofs.Span.RoundTrip
import SearchLoad.Proofs.Profile.RoundTrip
import SearchLoad.Proofs.Text.Utf8
import SearchLoad.Proofs.Text.ByteOrder
import SearchLoad.Proofs.Text.Entries
import SearchLoad.Proofs.Text.Quoting
import SearchLoad.Proofs.Dataset.Lines
import SearchLoad.Proofs.Dataset.Load
import SearchLoad.Proofs.Json.Strings
import SearchLoad.Proofs.Json.Objects
import SearchLoad.Proofs.Corpus.Records
import SearchLoad.Proofs.Dataset.Agreement
import SearchLoad.Proofs.Corpus.Composition
import SearchLoad.Proofs.Corpus.Index
import SearchLoad.Proofs.Corpus.FirstOccurrence
import SearchLoad.Proofs.Corpus.Scanner
import SearchLoad.Proofs.Wire.Framing
import SearchLoad.Proofs.Run.Draws
import SearchLoad.Proofs.Profile.Ramp
import SearchLoad.Proofs.Profile.Admission
import SearchLoad.Proofs.Profile.StageText
import SearchLoad.Proofs.Span.Carries
import SearchLoad.Proofs.Profile.Aborts
import SearchLoad.Proofs.Profile.Composition
import SearchLoad.Proofs.Run.Plan
import SearchLoad.Proofs.Run.Timetable
import SearchLoad.Proofs.Number.Rounding
import SearchLoad.Proofs.Profile.Interpolation
import SearchLoad.Proofs.Profile.Precision
import SearchLoad.Proofs.Profile.Walk
import SearchLoad.Proofs.Run.SharedClock
import SearchLoad.Proofs.Run.GracefulStop
import SearchLoad.Proofs.Stats.Bins
import SearchLoad.Proofs.Stats.Merging
import SearchLoad.Proofs.Stats.Percentiles
import SearchLoad.Proofs.Stats.LongLatencies
import SearchLoad.Proofs.Run.Pacing
import SearchLoad.Proofs.Run.Stopping
import SearchLoad.Proofs.Run.LastSearches
import SearchLoad.Proofs.Stats.Ordering
import SearchLoad.Proofs.Sampling.Uniform
import SearchLoad.Proofs.Json.Numbers
import SearchLoad.Proofs.Json.Trees
import SearchLoad.Proofs.Json.Reading
import SearchLoad.Proofs.Corpus.LastValues
import SearchLoad.Proofs.Dataset.Documents
import SearchLoad.Proofs.Dataset.SharedLines
import SearchLoad.Proofs.Settings.Shown
import SearchLoad.Proofs.Settings.Addresses
import SearchLoad.Proofs.Connection.Paths
import SearchLoad.Proofs.Endpoint.Division
import SearchLoad.Proofs.Endpoint.Plain
import SearchLoad.Proofs.CommandLine.Values
import SearchLoad.Proofs.CommandLine.Options
