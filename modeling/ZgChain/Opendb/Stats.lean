import ZgChain.Lib.KVStore
import ZgChain.Lib.Result
import ZgChain.Lib.Split

/-!
# Database statistics

The database writes its statistics as a text of one line for each of them: a name, and
then properties as a key, a colon and a value. The text is parsed line by line, and the
loader looks up the statistics it knows, collecting every error on the way.
-/

namespace ZgChain.Opendb

/-! ## The parser -/

structure Stat where
  name : String
  props : KVStore String String

inductive ParseError where
  | empty
  | tokensNum (tokens : List String)
  | emptyName
  | emptyKey
  | separator
  | emptyValue
  deriving DecidableEq, Repr

/-- A name and some triples of key, separator and value. -/
def validateTokens (tokens : List String) : Except ParseError Unit := do
  rejectIf (tokens.length < 4) (.tokensNum tokens)
  rejectIf ((tokens.length - 1) % 3 ≠ 0) (.tokensNum tokens)
  rejectIf (tokens.headD "" = "") .emptyName

def validateStatProperty (key value sep : String) : Except ParseError Unit := do
  rejectIf (key = "") .emptyKey
  rejectIf (sep ≠ ":") .separator
  rejectIf (value = "") .emptyValue

def parseProps (props : KVStore String String) :
    List String → Except ParseError (KVStore String String)
  | key :: sep :: value :: tokens => do
    validateStatProperty key value sep
    parseProps (props.set key value) tokens
  | _ => .ok props

def parseSerializedStat (serializedStat : String) : Except ParseError Stat := do
  let tokens := splitText ' ' serializedStat
  validateTokens tokens
  let props ← parseProps .empty tokens.tail
  return ⟨tokens.headD "", props⟩

abbrev StatMap := KVStore String Stat

def parseStatList (stats : StatMap) : List String → Except ParseError StatMap
  | [] => .ok stats
  | serializedStat :: serializedStatList => do
    let stat ← parseSerializedStat serializedStat
    parseStatList (stats.set stat.name stat) serializedStatList

/-- What follows the last line break is dropped. -/
def parseSerializedStats (serializedStats : String) : Except ParseError StatMap := do
  let serializedStatList := splitText '\n' serializedStats
  rejectIf (serializedStatList = []) .empty
  parseStatList .empty serializedStatList.dropLast

/-! ## Numbers -/

inductive NumError where
  | invalidSyntax
  | outOfRange
  deriving DecidableEq, Repr

/-- A number that does not fit is refused where it gets too large, before the digits after
that are read. -/
def parseUint (n : Nat) : List Char → Except NumError Nat
  | [] => .ok n
  | c :: cs => do
    rejectIf (c.isDigit = false) .invalidSyntax
    let n := 10 * n + (c.toNat - '0'.toNat)
    rejectIf (2 ^ 64 ≤ n) .outOfRange
    parseUint n cs

def parseInt (s : String) : Except NumError Int := do
  let cs := s.toList
  let neg := cs.head? = some '-'
  let digits := if neg ∨ cs.head? = some '+' then cs.tail else cs
  rejectIf (digits = []) .invalidSyntax
  let un ← parseUint 0 digits
  rejectIf (¬ neg ∧ 2 ^ 63 ≤ un) .outOfRange
  rejectIf (neg ∧ 2 ^ 63 < un) .outOfRange
  return if neg then -un else un

/-! ## The loader -/

inductive LoadError (φ : Type) where
  | statMissing (statName : String)
  | propMissing (statName propName : String)
  | cannotGet (statName : String)
  | cannotParseInt (err : NumError)
  | cannotParseFloat (err : φ)

/-- Floating point numbers as texts. -/
structure Floats (F φ : Type) where
  zero : F
  parseFloat : String → Except φ F

structure Float64Histogram (F : Type) where
  sum : F
  count : F
  p50 : F
  p95 : F
  p99 : F
  p100 : F

inductive Value (F : Type) where
  | int64 (v : Int)
  | histogram (h : Float64Histogram F)

inductive FieldType where
  | int64
  | histogram
  deriving DecidableEq, Repr

structure Field where
  name : String
  type : FieldType
  statName : String
  deriving DecidableEq, Repr

section
variable {F φ α : Type} (floats : Floats F φ) (statMap : StatMap)

/-- The errors are added to those of the calls before. -/
def getStatValue (errors : List (LoadError φ)) (statName propName : String) :
    String × List (LoadError φ) :=
  match statMap.get statName with
  | none => ("", errors ++ [.statMissing statName])
  | some stat =>
    match stat.props.get propName with
    | none => ("", errors ++ [.propMissing statName propName])
    | some prop => (prop, errors)

def getStatNumber (parse : String → Except (LoadError φ) α) (zero : α) (errors : List (LoadError φ))
    (statName propName : String) : α × List (LoadError φ) :=
  let (stringVal, errors) := getStatValue statMap errors statName propName
  if stringVal = "" then (zero, errors ++ [.cannotGet statName])
  else
    match parse stringVal with
    | .error err => (zero, errors ++ [err])
    | .ok val => (val, errors)

def getInt64StatValue (errors : List (LoadError φ)) (statName propName : String) :
    Int × List (LoadError φ) :=
  getStatNumber statMap (fun s => (parseInt s).mapError .cannotParseInt) 0 errors statName propName

def getFloat64StatValue (errors : List (LoadError φ)) (statName propName : String) :
    F × List (LoadError φ) :=
  getStatNumber statMap (fun s => (floats.parseFloat s).mapError .cannotParseFloat) floats.zero
    errors statName propName

def getFloat64HistogramStatValue (errors : List (LoadError φ)) (statName : String) :
    Float64Histogram F × List (LoadError φ) :=
  let (sum, errors) := getFloat64StatValue floats statMap errors statName "SUM"
  let (count, errors) := getFloat64StatValue floats statMap errors statName "COUNT"
  let (p50, errors) := getFloat64StatValue floats statMap errors statName "P50"
  let (p95, errors) := getFloat64StatValue floats statMap errors statName "P95"
  let (p99, errors) := getFloat64StatValue floats statMap errors statName "P99"
  let (p100, errors) := getFloat64StatValue floats statMap errors statName "P100"
  (⟨sum, count, p50, p95, p99, p100⟩, errors)

def getField (errors : List (LoadError φ)) (field : Field) : Value F × List (LoadError φ) :=
  match field.type with
  | .int64 =>
    let (v, errors) := getInt64StatValue statMap errors field.statName "COUNT"
    (.int64 v, errors)
  | .histogram =>
    let (h, errors) := getFloat64HistogramStatValue floats statMap errors field.statName
    (.histogram h, errors)

def getFields (errors : List (LoadError φ)) : List Field → List (Value F) × List (LoadError φ)
  | [] => ([], errors)
  | field :: fields =>
    let (value, errors) := getField floats statMap errors field
    let (values, errors) := getFields errors fields
    (value :: values, errors)

end

/-- The fields of the statistics that are loaded, in order. -/
def fields : List Field := [
  ⟨"NumberKeysWritten", .int64, "rocksdb.number.keys.written"⟩,
  ⟨"NumberKeysRead", .int64, "rocksdb.number.keys.read"⟩,
  ⟨"NumberKeysUpdated", .int64, "rocksdb.number.keys.updated"⟩,
  ⟨"BlockCacheMiss", .int64, "rocksdb.block.cache.miss"⟩,
  ⟨"BlockCacheHit", .int64, "rocksdb.block.cache.hit"⟩,
  ⟨"BlockCacheAdd", .int64, "rocksdb.block.cache.add"⟩,
  ⟨"BlockCacheAddFailures", .int64, "rocksdb.block.cache.add.failures"⟩,
  ⟨"BlockCacheIndexMiss", .int64, "rocksdb.block.cache.index.miss"⟩,
  ⟨"BlockCacheIndexHit", .int64, "rocksdb.block.cache.index.hit"⟩,
  ⟨"BlockCacheIndexBytesInsert", .int64, "rocksdb.block.cache.index.bytes.insert"⟩,
  ⟨"BlockCacheFilterMiss", .int64, "rocksdb.block.cache.filter.miss"⟩,
  ⟨"BlockCacheFilterHit", .int64, "rocksdb.block.cache.filter.hit"⟩,
  ⟨"BlockCacheFilterBytesInsert", .int64, "rocksdb.block.cache.filter.bytes.insert"⟩,
  ⟨"BlockCacheDataMiss", .int64, "rocksdb.block.cache.data.miss"⟩,
  ⟨"BlockCacheDataHit", .int64, "rocksdb.block.cache.data.hit"⟩,
  ⟨"BlockCacheDataBytesInsert", .int64, "rocksdb.block.cache.data.bytes.insert"⟩,
  ⟨"CompactReadBytes", .int64, "rocksdb.compact.read.bytes"⟩,
  ⟨"CompactWriteBytes", .int64, "rocksdb.compact.write.bytes"⟩,
  ⟨"CompactionTimesMicros", .histogram, "rocksdb.compaction.times.micros"⟩,
  ⟨"CompactionTimesCPUMicros", .histogram, "rocksdb.compaction.times.cpu_micros"⟩,
  ⟨"NumFilesInSingleCompaction", .histogram, "rocksdb.numfiles.in.singlecompaction"⟩,
  ⟨"ReadAmpEstimateUsefulBytes", .int64, "rocksdb.read.amp.estimate.useful.bytes"⟩,
  ⟨"ReadAmpTotalReadBytes", .int64, "rocksdb.read.amp.total.read.bytes"⟩,
  ⟨"NumberFileOpens", .int64, "rocksdb.no.file.opens"⟩,
  ⟨"NumberFileErrors", .int64, "rocksdb.no.file.errors"⟩,
  ⟨"BloomFilterUseful", .int64, "rocksdb.bloom.filter.useful"⟩,
  ⟨"BloomFilterFullPositive", .int64, "rocksdb.bloom.filter.full.positive"⟩,
  ⟨"BloomFilterFullTruePositive", .int64, "rocksdb.bloom.filter.full.true.positive"⟩,
  ⟨"MemtableHit", .int64, "rocksdb.memtable.hit"⟩,
  ⟨"MemtableMiss", .int64, "rocksdb.memtable.miss"⟩,
  ⟨"GetHitL0", .int64, "rocksdb.l0.hit"⟩,
  ⟨"GetHitL1", .int64, "rocksdb.l1.hit"⟩,
  ⟨"GetHitL2AndUp", .int64, "rocksdb.l2andup.hit"⟩,
  ⟨"BytesWritten", .int64, "rocksdb.bytes.written"⟩,
  ⟨"BytesRead", .int64, "rocksdb.bytes.read"⟩,
  ⟨"StallMicros", .int64, "rocksdb.stall.micros"⟩,
  ⟨"DBWriteStallHistogram", .histogram, "rocksdb.db.write.stall"⟩,
  ⟨"LastLevelReadBytes", .int64, "rocksdb.last.level.read.bytes"⟩,
  ⟨"LastLevelReadCount", .int64, "rocksdb.last.level.read.count"⟩,
  ⟨"NonLastLevelReadBytes", .int64, "rocksdb.non.last.level.read.bytes"⟩,
  ⟨"NonLastLevelReadCount", .int64, "rocksdb.non.last.level.read.count"⟩,
  ⟨"DBGetMicros", .histogram, "rocksdb.db.get.micros"⟩,
  ⟨"DBWriteMicros", .histogram, "rocksdb.db.write.micros"⟩,
  ⟨"BytesPerRead", .histogram, "rocksdb.bytes.per.read"⟩,
  ⟨"BytesPerWrite", .histogram, "rocksdb.bytes.per.write"⟩,
  ⟨"BytesPerMultiget", .histogram, "rocksdb.bytes.per.multiget"⟩,
  ⟨"FlushMicros", .histogram, "rocksdb.db.flush.micros"⟩]

/-- The values of the fields, in order. -/
def load {F φ : Type} (floats : Floats F φ) (statMap : StatMap) :
    Except (List (LoadError φ)) (List (Value F)) :=
  let (values, errors) := getFields floats statMap [] fields
  if errors.isEmpty then .ok values else .error errors

/-! ## Properties -/

structure PropsGetter where
  getProperty : String → String
  getIntProperty : String → Option Nat

structure Properties where
  intProperties : List Nat
  optionsStatistics : String
  deriving DecidableEq, Repr

/-- The properties that are numbers, in order. -/
def intProperties : List String := [
  "rocksdb.base-level",
  "rocksdb.block-cache-capacity",
  "rocksdb.block-cache-pinned-usage",
  "rocksdb.block-cache-usage",
  "rocksdb.cur-size-active-mem-table",
  "rocksdb.cur-size-all-mem-tables",
  "rocksdb.estimate-live-data-size",
  "rocksdb.estimate-num-keys",
  "rocksdb.estimate-table-readers-mem",
  "rocksdb.live-sst-files-size",
  "rocksdb.size-all-mem-tables"]

inductive PropError where
  | cannotGetInt (propName : String)
  | empty (propName : String)
  deriving DecidableEq, Repr

def getIntProperties (db : PropsGetter) : List String → List Nat × List PropError
  | [] => ([], [])
  | propName :: propNames =>
    let (values, errorMsgs) := getIntProperties db propNames
    match db.getIntProperty propName with
    | none => (0 :: values, .cannotGetInt propName :: errorMsgs)
    | some value => (value :: values, errorMsgs)

def loadProperties (db : PropsGetter) : Except (List PropError) Properties :=
  let (values, errorMsgs) := getIntProperties db intProperties
  let text := db.getProperty "rocksdb.options-statistics"
  let errorMsgs := if text = "" then errorMsgs ++ [.empty "rocksdb.options-statistics"]
    else errorMsgs
  if errorMsgs.isEmpty then .ok ⟨values, text⟩ else .error errorMsgs

inductive Error (φ : Type) where
  | props (errs : List PropError)
  | parse (err : ParseError)
  | load (errs : List (LoadError φ))

def getPropsAndStats {F φ : Type} (floats : Floats F φ) (db : PropsGetter) :
    Except (Error φ) (Properties × List (Value F)) := do
  let props ← (loadProperties db).mapError .props
  let statMap ← (parseSerializedStats props.optionsStatistics).mapError .parse
  let stats ← (load floats statMap).mapError .load
  return (props, stats)

end ZgChain.Opendb
