import TarHeader.Attributes
import TarHeader.Attributes.Read
import TarHeader.Attributes.Write
import TarHeader.Buffer
import TarHeader.Bytes
import TarHeader.Charset
import TarHeader.Charset.CodePage
import TarHeader.Charset.Fallback
import TarHeader.Checksum
import TarHeader.Edit
import TarHeader.Entry
import TarHeader.Entry.Change
import TarHeader.Entry.File
import TarHeader.Entry.Header
import TarHeader.Entry.Kind
import TarHeader.Entry.Sparse
import TarHeader.Fault
import TarHeader.FileTree
import TarHeader.FileView
import TarHeader.Format
import TarHeader.Instant
import TarHeader.Layout
import TarHeader.NameSplit
import TarHeader.Numeral
import TarHeader.Numeral.Base256
import TarHeader.Numeral.Octal
import TarHeader.Numeral.Word
import TarHeader.PathStyle
import TarHeader.Permission
import TarHeader.Positional
import TarHeader.Proofs.Attributes.Contents
import TarHeader.Proofs.Attributes.ReadBack
import TarHeader.Proofs.Attributes.ReadSpec
import TarHeader.Proofs.Attributes.ReadVerdict
import TarHeader.Proofs.Attributes.WriteVerdict
import TarHeader.Proofs.Attributes.Written
import TarHeader.Proofs.Buffer
import TarHeader.Proofs.Charset.Canonical
import TarHeader.Proofs.Charset.Laws
import TarHeader.Proofs.Checksum.Corruption
import TarHeader.Proofs.Checksum.FirstRun
import TarHeader.Proofs.Checksum.Seal
import TarHeader.Proofs.Checksum.Tally
import TarHeader.Proofs.Edit
import TarHeader.Proofs.Entry.Acceptance
import TarHeader.Proofs.Entry.Atomicity
import TarHeader.Proofs.Entry.ChosenFormat
import TarHeader.Proofs.Entry.CopiedName
import TarHeader.Proofs.Entry.CutName
import TarHeader.Proofs.Entry.FileType
import TarHeader.Proofs.Entry.Forgetting
import TarHeader.Proofs.Entry.Interference
import TarHeader.Proofs.Entry.KeptKind
import TarHeader.Proofs.Entry.Merge
import TarHeader.Proofs.Entry.MergeOutcome
import TarHeader.Proofs.Entry.NameHistory
import TarHeader.Proofs.Entry.NewEntry
import TarHeader.Proofs.Entry.Refusal
import TarHeader.Proofs.Entry.Renaming
import TarHeader.Proofs.Entry.RestoredMarks
import TarHeader.Proofs.Entry.Rewriting
import TarHeader.Proofs.Entry.RoundTrip
import TarHeader.Proofs.Entry.Sealing
import TarHeader.Proofs.Entry.SelfReadable
import TarHeader.Proofs.Entry.StoredName
import TarHeader.Proofs.Entry.UnreadOctets
import TarHeader.Proofs.Entry.UnstoredChecksum
import TarHeader.Proofs.Format
import TarHeader.Proofs.NameSplit
import TarHeader.Proofs.NameSplit.Room
import TarHeader.Proofs.Numeral.OctalText
import TarHeader.Proofs.Numeral.RoundTrip
import TarHeader.Proofs.Numeral.TwosComplement
import TarHeader.Proofs.Numeral.Writable
import TarHeader.Proofs.PathStyle
import TarHeader.Proofs.PathStyle.Device
import TarHeader.Proofs.Record.Fields
import TarHeader.Proofs.TextField
import TarHeader.Proofs.TextField.Truncation
import TarHeader.Proofs.Verdict
import TarHeader.Record
import TarHeader.Text.Printable
import TarHeader.Text.Quoted
import TarHeader.Text.Utf8
import TarHeader.TextField
import TarHeader.TypeFlag
import TarHeader.Proofs.Instant
import TarHeader.Proofs.Entry.ModificationTime
import TarHeader.Proofs.Numeral.LowDigits
import TarHeader.Proofs.Entry.DirectoryChildren
