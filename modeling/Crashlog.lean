import Crashlog.Berr
import Crashlog.Cper
import Crashlog.CrashLog
import Crashlog.Export
import Crashlog.Bert
import Crashlog.Container
import Crashlog.Hierarchy
import Crashlog.Merge
import Crashlog.DecodeHeaders
import Crashlog.Nesting
import Crashlog.Collateral
import Crashlog.Layout
import Crashlog.Decode
import Crashlog.Attribution
import Crashlog.BanksInPlace
import Crashlog.TransactionQueue
import Crashlog.Report
import Crashlog.DocumentOrder
import Crashlog.Checksum
import Crashlog.FileSystemTree
import Crashlog.Extract
import Crashlog.TargetInfo
import Crashlog.EventLog
import Crashlog.PmtSysFs
import Crashlog.PagerRun
import Crashlog.TopLevel
import Crashlog.Checked
import Crashlog.CheckedParse
import Crashlog.RecordCount
import Crashlog.CheckedDecode
import Crashlog.SourceNames
import Crashlog.JsonExport
import Crashlog.Ffi
import Crashlog.EmbeddedDecode
import Crashlog.DecodedTree
import Crashlog.FfiStreams
import Crashlog.FfiTrees
import Crashlog.Args
import Crashlog.Unpack
import Crashlog.TagLines
import Crashlog.Listing
import Crashlog.InstanceOrder
import Crashlog.Info
import Crashlog.DocumentNumbers
import Crashlog.ExtractedFiles
import Crashlog.SourceBySource
