import Hookfs.Lib.Runs
import Hookfs.Lib.Dialogue
import Hookfs.Lib.Enumeration
import Hookfs.Lib.Text
import Hookfs.Lib.Writes
import Hookfs.Lib.Sums
import Hookfs.Lib.SharedCell
import Hookfs.Lib.Bitfields
import Hookfs.Lib.Components
import Hookfs.Lib.Store
import Hookfs.Lib.Tree
import Hookfs.Lib.Holders
import Hookfs.Lib.Forest
import Hookfs.Plthook.Slot
import Hookfs.Plthook.Asks
import Hookfs.Plthook.Protection
import Hookfs.Plthook.Transaction
import Hookfs.Plthook.Install
import Hookfs.Plthook.Interleaving
import Hookfs.Install.Installer
import Hookfs.Install.Ownership
import Hookfs.Install.Activation
import Hookfs.Path.Posix
import Hookfs.Path.Keys
import Hookfs.Path.Canonical
import Hookfs.Path.Bytes
import Hookfs.Path.Utf8
import Hookfs.Install.Rescan
import Hookfs.Vfs.Core
import Hookfs.Vfs.Cursors
import Hookfs.Memory.Fs
import Hookfs.Memory.Tree
import Hookfs.Memory.Moves
import Hookfs.Memory.Subtrees
import Hookfs.Path.Labels
import Hookfs.Memory.Renames
import Hookfs.Memory.Shape
import Hookfs.Memory.Handles
import Hookfs.Memory.RoundTrip
import Hookfs.Memory.Items
import Hookfs.Memory.Listing
import Hookfs.Memory.Accounting
import Hookfs.Memory.Exact
import Hookfs.Memory.Held
import Hookfs.Memory.Failures
import Hookfs.Memory.Opening
import Hookfs.Memory.Layout
import Hookfs.Memory.Drawn
import Hookfs.Memory.Pieces
import Hookfs.Memory.Widths
import Hookfs.Memory.Reference
import Hookfs.Memory.Append
import Hookfs.Mount.Context
import Hookfs.Mount.Isolation
import Hookfs.Path.Decode
import Hookfs.Vfs.Provider
import Hookfs.Router.Engine
import Hookfs.Unix.Libc
import Hookfs.Unix.Shims
import Hookfs.Unix.Spelled
import Hookfs.Unix.Effects
import Hookfs.Memory.Provider
import Hookfs.Memory.Inodes
import Hookfs.Vfs.Overlay
import Hookfs.Memory.Overlay
import Hookfs.Unix.FailClosed
import Hookfs.Unix.Chdir
import Hookfs.Unix.AtCalls
import Hookfs.Unix.Descriptors
import Hookfs.Unix.Session
import Hookfs.Unix.Listings
import Hookfs.Unix.Frames
import Hookfs.Unix.Opens
import Hookfs.Unix.ReadOnly
import Hookfs.Unix.Owners
import Hookfs.Unix.Access
import Hookfs.Unix.Exclusive
import Hookfs.Unix.Identity
import Hookfs.Unix.Races
import Hookfs.Unix.Vectored
import Hookfs.Unix.Positioned
import Hookfs.Unix.Files
import Hookfs.Unix.Descriptions
import Hookfs.Unix.Answers
import Hookfs.Unix.Traffic
import Hookfs.Unix.Accounts
import Hookfs.Unix.Orderly
import Hookfs.Unix.Alone
import Hookfs.Windows.Paths
import Hookfs.Windows.Keys
import Hookfs.Windows.Wildcards
import Hookfs.Windows.Spelling
import Hookfs.Windows.StdPath
import Hookfs.Windows.Kernel
import Hookfs.Windows.Lexical
import Hookfs.Windows.Shims
import Hookfs.Windows.FailClosed
import Hookfs.Windows.Opening
import Hookfs.Windows.Handles
import Hookfs.Windows.Sessions
import Hookfs.Windows.Searches
import Hookfs.Windows.Carriers
import Hookfs.Windows.Files
import Hookfs.Windows.Descriptions
import Hookfs.Windows.Answers
import Hookfs.Mount.Names
import Hookfs.Router.Membership
import Hookfs.Router.FailedOpens
import Hookfs.Lib.Checked
import Hookfs.Lib.Leb128
import Hookfs.Lib.Wildcard
import Hookfs.Lib.Scan
import Hookfs.Lib.Keyed
import Hookfs.Plthook.Import
import Hookfs.Plthook.Elf
import Hookfs.Plthook.ElfSafety
import Hookfs.Plthook.Pe
import Hookfs.Plthook.PeSafety
import Hookfs.Plthook.PeMeaning
import Hookfs.Plthook.ElfView
import Hookfs.Plthook.ElfMeaning
import Hookfs.Plthook.ElfExact
import Hookfs.Plthook.MachO
import Hookfs.Plthook.MachOImports
import Hookfs.Plthook.MachOBounds
import Hookfs.Plthook.MachOMerge
import Hookfs.Plthook.MachOSafety
import Hookfs.Plthook.MachOFlags
import Hookfs.Plthook.MachOLeb
import Hookfs.Plthook.MachOSlices
import Hookfs.Plthook.ElfObjects
import Hookfs.Plthook.MachOLive
import Hookfs.Plthook.Belongs
import Hookfs.Plthook.MachOOpcodes
import Hookfs.Plthook.MachOReplay
import Hookfs.Plthook.MachOEncoding
import Hookfs.Plthook.MachOFixups
import Hookfs.Plthook.MachORoundTrip
import Hookfs.Plthook.MachOChains
import Hookfs.Plthook.MachOPlaces
import Hookfs.Lib.Dialogue
