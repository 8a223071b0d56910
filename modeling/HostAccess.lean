import HostAccess.Account
import HostAccess.Bytes
import HostAccess.Capability
import HostAccess.Capability.Set
import HostAccess.Dataset
import HostAccess.Errno
import HostAccess.Error
import HostAccess.File.Binding
import HostAccess.File.Host
import HostAccess.File.Native
import HostAccess.File.Node
import HostAccess.File.Operations
import HostAccess.File.Path
import HostAccess.File.System
import HostAccess.Host
import HostAccess.Linker
import HostAccess.Log
import HostAccess.Login
import HostAccess.Login.Conversation
import HostAccess.Login.Setup
import HostAccess.Main
import HostAccess.Memory
import HostAccess.Platform
import HostAccess.Process.ArgumentArea
import HostAccess.Process.CommandLine
import HostAccess.Process.Descriptor
import HostAccess.Process.Environment
import HostAccess.Process.Forest
import HostAccess.Process.Layout
import HostAccess.Process.Listing
import HostAccess.Process.ProcTree
import HostAccess.Process.Table
import HostAccess.Query
import HostAccess.Query.Growing
import HostAccess.Report
import HostAccess.Restart
import HostAccess.Session
import HostAccess.Settings
import HostAccess.Settings.Lookup
import HostAccess.Text.Blank
import HostAccess.Text.Decimal
import HostAccess.Text.Quoted
import HostAccess.Text.Unprintable
import HostAccess.Text.Utf16
import HostAccess.Text.Utf8
import HostAccess.Proofs.Bytes
import HostAccess.Proofs.Process.ArgumentArea
import HostAccess.Proofs.Text.Utf8
import HostAccess.Proofs.Process.ArgumentRoundTrip
import HostAccess.Proofs.Process.RecordTable
import HostAccess.Proofs.Query.Course
import HostAccess.Proofs.Process.Snapshot
import HostAccess.Proofs.Process.EnvironmentForms
import HostAccess.Proofs.Process.ProcTree
import HostAccess.Proofs.Process.Forest
import HostAccess.Proofs.Process.Questions
import HostAccess.Proofs.Process.EmptyArguments
import HostAccess.Proofs.File.Routing
import HostAccess.Proofs.File.Transparency
import HostAccess.Proofs.Host.Gating
import HostAccess.Proofs.Login.Course
import HostAccess.Proofs.Process.ProcListing
import HostAccess.Proofs.Process.TreeView
import HostAccess.Proofs.Log.TwoLevels
import HostAccess.Proofs.Query.Readings
import HostAccess.Proofs.Process.CommandLine
import HostAccess.Proofs.Process.CutArea
import HostAccess.Proofs.Process.TreeOrder
import HostAccess.Proofs.Process.ListingOrder
import HostAccess.Proofs.Process.RecordWriting
import HostAccess.Proofs.Process.ArgumentFile
import HostAccess.Proofs.Process.StatFields
import HostAccess.Proofs.Memory
import HostAccess.Proofs.File.LinkReads
import HostAccess.Proofs.Settings.Lookup
import HostAccess.Proofs.Settings.EmptyVariables
import HostAccess.Proofs.Settings.RoundTrip
import HostAccess.Proofs.Account
import HostAccess.Proofs.Process.CommandLine.Seams
import HostAccess.Proofs.Restart.Descriptors
import HostAccess.Proofs.Restart
import HostAccess.Proofs.Capability.Set
import HostAccess.Proofs.Process.ArgumentArea.Cursor
