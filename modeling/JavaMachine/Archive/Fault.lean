import JavaMachine.Archive.Inflate

/-!
# Faults of archives

The reasons for which an archive cannot be opened or an entry of it cannot be read.
-/

namespace JavaMachine

/-- Why an archive or one of its entries cannot be read. -/
inductive ArchiveFault where
  /-- A record goes on beyond the end of the file. -/
  | cutOff
  | noEndRecord
  /-- The comment of the end record goes on beyond the end of the file. -/
  | longComment
  /-- The central directory begins behind the end record. -/
  | directoryBehindEnd
  | noDirectory
  /-- The locator of the 64-bit end record leads to itself or behind it. -/
  | locatorBehindRecord
  | severalDisks
  | noWideRecord
  /-- The 64-bit end record announces less than its fixed part. -/
  | shortWideRecord
  /-- The 64-bit end record reaches into its locator. -/
  | longWideRecord
  /-- The 64-bit end record and its locator name different disks. -/
  | locatorMismatch
  /-- The 64-bit end record does not reach to its locator. -/
  | wrongWideSize
  /-- Ahead of the 64-bit end record there is no room for as many entries. -/
  | tooManyEntries
  | badEntryHeader
  | unknownMethod
  /-- The entry is marked as encrypted. -/
  | encrypted
  /-- The entry names a cipher but is not marked as encrypted. -/
  | wrongPassword
  | undecodable (fault : Inflate.Fault)
  | wrongChecksum
  deriving DecidableEq, Repr

namespace ArchiveFault

/-- Wording of a fault of the archive's structure. -/
def invalid (detail : String) : String := "invalid Zip archive: " ++ detail

/-- Wording of a fault that is a missing ability. -/
def unsupported (detail : String) : String := "unsupported Zip archive: " ++ detail

/-- Wording of a fault. -/
def message : ArchiveFault → String
  | cutOff => "i/o error"
  | noEndRecord => invalid "Could not find EOCD"
  | longComment => invalid "EOCD comment exceeds file boundary"
  | directoryBehindEnd => invalid "Invalid CDFH offset in EOCD"
  | noDirectory => invalid "No CDFH found"
  | locatorBehindRecord => invalid "Invalid EOCD64 Locator CD offset"
  | severalDisks => invalid "Multi-disk ZIP files are not supported"
  | noWideRecord => invalid "Could not find EOCD64"
  | shortWideRecord => invalid "Low EOCD64 record size"
  | longWideRecord => invalid "EOCD64 extends beyond EOCD64 locator"
  | locatorMismatch => invalid "Invalid EOCD64: inconsistency with Locator data"
  | wrongWideSize => invalid "Invalid EOCD64: inconsistent length"
  | tooManyEntries => invalid "Invalid EOCD64: inconsistent number of files"
  | badEntryHeader => invalid "Invalid local file header"
  | unknownMethod => unsupported "Compression method not supported"
  | encrypted => unsupported "Password required to decrypt file"
  | wrongPassword => "provided password is incorrect"
  | undecodable .incomplete => "incomplete deflate stream"
  | undecodable .corrupt => "corrupt deflate stream"
  | wrongChecksum => "Invalid checksum"

end ArchiveFault
end JavaMachine
