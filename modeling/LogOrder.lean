import LogOrder.CommandLine.Arguments
import LogOrder.CommandLine.Messages
import LogOrder.CommandLine.Reading
import LogOrder.Entry
import LogOrder.Fault
import LogOrder.FileTree
import LogOrder.IoFault
import LogOrder.Log.Arranged
import LogOrder.Log.Reorder
import LogOrder.Log.Scan
import LogOrder.Main
import LogOrder.Policy
import LogOrder.Program.Host
import LogOrder.Program.Run
import LogOrder.Proofs.CommandLine.Accepted
import LogOrder.Proofs.CommandLine.Spelled
import LogOrder.Proofs.FileTree
import LogOrder.Proofs.LineReader
import LogOrder.Proofs.Log.Arrangements
import LogOrder.Proofs.Log.Chunked
import LogOrder.Proofs.Log.Cohesion
import LogOrder.Proofs.Log.Counted
import LogOrder.Proofs.Log.Emitted
import LogOrder.Proofs.Log.FirstLines
import LogOrder.Proofs.Log.FullSink
import LogOrder.Proofs.Log.Groups
import LogOrder.Proofs.Log.Items
import LogOrder.Proofs.Log.Layout
import LogOrder.Proofs.Log.Lossless
import LogOrder.Proofs.Log.Marked
import LogOrder.Proofs.Log.Partition
import LogOrder.Proofs.Log.PlainOrders
import LogOrder.Proofs.Log.Reread
import LogOrder.Proofs.Log.Resembling
import LogOrder.Proofs.Log.Resorted
import LogOrder.Proofs.Log.Run
import LogOrder.Proofs.Log.Scanned
import LogOrder.Proofs.Log.Skipped
import LogOrder.Proofs.Log.Stable
import LogOrder.Proofs.Log.Stopped
import LogOrder.Proofs.Log.Streamed
import LogOrder.Proofs.Log.Unread
import LogOrder.Proofs.Policy.Names
import LogOrder.Proofs.Policy.Readers
import LogOrder.Proofs.Policy.Rearranged
import LogOrder.Proofs.Policy.TotalOrder
import LogOrder.Proofs.Program.Delivered
import LogOrder.Proofs.Program.ExitStatus
import LogOrder.Proofs.Program.Framed
import LogOrder.Proofs.Program.InWorld
import LogOrder.Proofs.Program.Requested
import LogOrder.Proofs.Program.UnreadableLog
import LogOrder.Proofs.Settings.Loaded
import LogOrder.Proofs.Settings.OrderLine
import LogOrder.Proofs.Settings.Resolution
import LogOrder.Proofs.Source
import LogOrder.Proofs.Stamp.AsText
import LogOrder.Proofs.Stamp.Digits
import LogOrder.Proofs.Stamp.Machine
import LogOrder.Proofs.Stamp.Opening
import LogOrder.Proofs.Stamp.Parsed
import LogOrder.Proofs.Text.Lines
import LogOrder.Proofs.Thread.Calls
import LogOrder.Proofs.Thread.Rightmost
import LogOrder.Proofs.Thread.Roster
import LogOrder.Proofs.Toml.Escaped
import LogOrder.Settings.File
import LogOrder.Settings.Resolved
import LogOrder.Sink
import LogOrder.Source
import LogOrder.Stamp.Basic
import LogOrder.Stamp.Calendar
import LogOrder.Stamp.Written
import LogOrder.Text.Bytes
import LogOrder.Text.Combining
import LogOrder.Text.Decimal
import LogOrder.Text.Line
import LogOrder.Text.Quoted
import LogOrder.Text.Unprintable
import LogOrder.Text.Utf8
import LogOrder.Thread.Marker
import LogOrder.Thread.Roster
import LogOrder.Toml.Document
import LogOrder.Toml.Excerpt
import LogOrder.Toml.Quoted
import LogOrder.Toml.Reader
import LogOrder.Toml.Scalar
import LogOrder.Toml.Value
