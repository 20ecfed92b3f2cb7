import ZgChain.Opendb.Stats

/-!
# What the statistics are read from

The parser accepts exactly the texts that are lines of a name and properties, with anything
but a line break after the last of them. What is loaded for a field is the number that the
last line of its name holds, and nothing is loaded unless all fields are.
-/

namespace ZgChain

/-- Of the values that are set for a key, the last one stays. -/
theorem KVStore.get_foldl_set_last {K V α : Type} [LinearOrder K] (key : α → K) (val : α → V)
    (l : List α) (s : KVStore K V) (k : K) : (l.foldl (fun s a => s.set (key a) (val a)) s).get k =
      ((l.reverse.find? fun a => key a = k).map val).or (s.get k) := by
  induction l using List.reverseRecOn with
  | nil => rfl
  | append_singleton l a ih =>
    rw [List.foldl_append, List.foldl_cons, List.foldl_nil, KVStore.get_set, List.reverse_append,
      List.reverse_singleton, List.singleton_append, List.find?_cons, ih]
    by_cases h : k = key a
    · simp [h]
    · simp [h, Ne.symm h]

namespace Opendb

/-! ## Lines -/

structure Line where
  name : String
  props : List (String × String)

namespace Line

def tokens (l : Line) : List String := l.name :: l.props.flatMap fun p => [p.1, ":", p.2]

def text (l : Line) : String := joinText ' ' l.tokens

/-- The value of a key is the last one that is given. -/
def value (l : Line) (key : String) : Option String :=
  (l.props.reverse.find? fun p => p.1 = key).map Prod.snd

def stat (l : Line) : Stat := ⟨l.name, l.props.foldl (fun props p => props.set p.1 p.2) .empty⟩

end Line

def Word (t : String) : Prop := t ≠ "" ∧ ' ' ∉ t.toList ∧ '\n' ∉ t.toList

structure Line.Ok (l : Line) : Prop where
  name : Word l.name
  props : ∀ p ∈ l.props, Word p.1 ∧ Word p.2
  nonempty : l.props ≠ []

def render (lines : List Line) : String :=
  String.ofList (lines.flatMap fun l => l.text.toList ++ ['\n'])

def collect (lines : List Line) : StatMap :=
  lines.foldl (fun stats l => stats.set l.name l.stat) .empty

/-! ## One line -/

theorem validateStatProperty_ok {key value sep : String} {u : Unit} :
    validateStatProperty key value sep = .ok u ↔ key ≠ "" ∧ sep = ":" ∧ value ≠ "" := by
  simp [validateStatProperty]

theorem parseProps_iff {tokens : List String} {props props' : KVStore String String}
    (h3 : tokens.length % 3 = 0) :
    parseProps props tokens = .ok props' ↔ ∃ ps : List (String × String), tokens =
      (ps.flatMap fun p => [p.1, ":", p.2]) ∧
      (∀ p ∈ ps, p.1 ≠ "" ∧ p.2 ≠ "") ∧
      props' = ps.foldl (fun props p => props.set p.1 p.2) props := by
  induction props, tokens using parseProps.induct with
  | case1 props key sep value tokens ih =>
    have h3' : tokens.length % 3 = 0 := by
      simp only [List.length_cons] at h3
      omega
    simp only [parseProps, bind_eq_ok, validateStatProperty_ok, ih h3']
    constructor
    · intro h
      obtain ⟨_, ⟨hkey, rfl, hvalue⟩, ps, rfl, hps, rfl⟩ := h
      exact ⟨(key, value) :: ps, rfl, List.forall_mem_cons.mpr ⟨⟨hkey, hvalue⟩, hps⟩, rfl⟩
    · intro h
      obtain ⟨ps, htokens, hps, rfl⟩ := h
      cases ps with
      | nil => cases htokens
      | cons p ps =>
        simp only [List.flatMap_cons, List.cons_append, List.nil_append, List.cons.injEq] at htokens
        obtain ⟨rfl, rfl, rfl, rfl⟩ := htokens
        obtain ⟨⟨hkey, hvalue⟩, hps⟩ := List.forall_mem_cons.mp hps
        exact ⟨(), ⟨hkey, rfl, hvalue⟩, ps, rfl, hps, rfl⟩
  | case2 tokens props hshort =>
    have hnil : tokens = [] := by
      cases tokens with
      | nil => rfl
      | cons key tokens =>
        cases tokens with
        | nil => cases h3
        | cons sep tokens =>
          cases tokens with
          | nil => cases h3
          | cons value tokens => exact absurd rfl (hshort key sep value tokens)
    subst hnil
    simp only [parseProps, Except.ok.injEq]
    constructor
    · intro h
      exact ⟨[], rfl, by simp, h.symm⟩
    · intro h
      obtain ⟨ps, hps, _, rfl⟩ := h
      cases ps with
      | nil => rfl
      | cons p ps => cases hps

theorem validateTokens_ok {tokens : List String} {u : Unit} : validateTokens tokens = .ok u ↔
    4 ≤ tokens.length ∧ (tokens.length - 1) % 3 = 0 ∧ tokens.headD "" ≠ "" := by
  simp [validateTokens]

/-- The tokens that are accepted, and what is read from them. -/
theorem parseTokens_iff {tokens : List String} {stat : Stat} :
    (∃ u props, validateTokens tokens = .ok u ∧ parseProps .empty tokens.tail = .ok props ∧
      (⟨tokens.headD "", props⟩ : Stat) = stat) ↔
    ∃ l : Line, tokens = l.tokens ∧ l.name ≠ "" ∧ (∀ p ∈ l.props, p.1 ≠ "" ∧ p.2 ≠ "") ∧
      l.props ≠ [] ∧ stat = l.stat := by
  simp only [validateTokens_ok]
  constructor
  · intro h
    obtain ⟨_, props, ⟨hlen, h3, hname⟩, hprops, rfl⟩ := h
    cases tokens with
    | nil => simp at hlen
    | cons name tokens =>
      rw [List.length_cons] at hlen h3
      obtain ⟨ps, rfl, hps, rfl⟩ := (parseProps_iff (by simpa using h3)).mp hprops
      refine ⟨⟨name, ps⟩, rfl, hname, hps, fun e => ?_, rfl⟩
      subst e
      simp at hlen
  · intro h
    obtain ⟨l, rfl, hname, hps, hne, rfl⟩ := h
    have hlen : (l.props.flatMap fun p => [p.1, ":", p.2]).length = 3 * l.props.length := by
      rw [List.length_flatMap]
      simp [mul_comm]
    have hpos : 0 < l.props.length := List.length_pos_of_ne_nil hne
    refine ⟨(), _, ⟨?_, ?_, hname⟩, (parseProps_iff ?_).mpr ⟨l.props, rfl, hps, rfl⟩, rfl⟩
    · rw [Line.tokens, List.length_cons, hlen]
      omega
    · rw [Line.tokens, List.length_cons, hlen]
      omega
    · rw [Line.tokens, List.tail_cons, hlen]
      omega

theorem mem_tokens {l : Line} {t : String} :
    t ∈ l.tokens ↔ t = l.name ∨ ∃ p ∈ l.props, t = p.1 ∨ t = ":" ∨ t = p.2 := by
  simp [Line.tokens]

/-- Lines without the line break. -/
theorem parseSerializedStat_iff {s : String} {stat : Stat} (hs : '\n' ∉ s.toList) :
    parseSerializedStat s = .ok stat ↔ ∃ l : Line, l.Ok ∧ s = l.text ∧ stat = l.stat := by
  have hparse : parseSerializedStat s = .ok stat ↔ ∃ l : Line, splitText ' ' s = l.tokens ∧
      l.name ≠ "" ∧
      (∀ p ∈ l.props, p.1 ≠ "" ∧ p.2 ≠ "") ∧ l.props ≠ [] ∧ stat = l.stat := by
    rw [← parseTokens_iff]
    simp only [parseSerializedStat, bind_eq_ok, pure_eq_ok]
    constructor
    · intro h
      obtain ⟨u, hu, props, hprops, hstat⟩ := h
      exact ⟨u, props, hu, hprops, hstat⟩
    · intro h
      obtain ⟨u, props, hu, hprops, hstat⟩ := h
      exact ⟨u, hu, props, hprops, hstat⟩
  rw [hparse]
  constructor
  · intro h
    obtain ⟨l, hsplit, hname, hps, hne, rfl⟩ := h
    obtain ⟨_, hspace, rfl⟩ := splitText_eq_iff.mp hsplit
    have hline : ∀ t ∈ l.tokens, '\n' ∉ t.toList :=
      fun t ht hc => hs ((mem_joinText (by decide)).mpr ⟨t, ht, hc⟩)
    have hword : ∀ t ∈ l.tokens, t ≠ "" → Word t := fun t ht hne => ⟨hne, hspace t ht, hline t ht⟩
    refine ⟨l, ⟨hword l.name (by simp [mem_tokens]) hname, fun p hp => ⟨?_, ?_⟩, hne⟩, rfl, rfl⟩
    · exact hword p.1 (mem_tokens.mpr (Or.inr ⟨p, hp, Or.inl rfl⟩)) (hps p hp).1
    · exact hword p.2 (mem_tokens.mpr (Or.inr ⟨p, hp, Or.inr (Or.inr rfl)⟩)) (hps p hp).2
  · intro h
    obtain ⟨l, hl, rfl, rfl⟩ := h
    refine ⟨l, splitText_eq_iff.mpr ⟨by simp [Line.tokens], fun t ht => ?_, rfl⟩, hl.name.1,
      fun p hp => ⟨(hl.props p hp).1.1, (hl.props p hp).2.1⟩, hl.nonempty, rfl⟩
    rcases mem_tokens.mp ht with rfl | ⟨p, hp, rfl | rfl | rfl⟩
    · exact hl.name.2.1
    · exact (hl.props p hp).1.2.1
    · decide
    · exact (hl.props p hp).2.2.1

theorem Line.Ok.noBreak {l : Line} (hl : l.Ok) : '\n' ∉ l.text.toList := by
  rw [Line.text, mem_joinText (by decide)]
  intro h
  obtain ⟨t, ht, hc⟩ := h
  rcases mem_tokens.mp ht with rfl | ⟨p, hp, rfl | rfl | rfl⟩
  · exact hl.name.2.2 hc
  · exact (hl.props p hp).1.2.2 hc
  · exact absurd hc (by decide)
  · exact (hl.props p hp).2.2.2 hc

/-! ## The whole text -/

theorem parseStatList_iff {texts : List String} {stats stats' : StatMap}
    (h : ∀ s ∈ texts, '\n' ∉ s.toList) :
    parseStatList stats texts = .ok stats' ↔ ∃ lines : List Line, (∀ l ∈ lines, l.Ok) ∧
    texts = lines.map Line.text ∧
      stats' = lines.foldl (fun stats l => stats.set l.name l.stat) stats := by
  induction texts generalizing stats with
  | nil =>
    simp only [parseStatList, Except.ok.injEq]
    constructor
    · intro e
      exact ⟨[], by simp, rfl, e.symm⟩
    · intro e
      obtain ⟨lines, _, htexts, rfl⟩ := e
      rw [List.map_eq_nil_iff.mp htexts.symm]
      rfl
  | cons s texts ih =>
    obtain ⟨hs, htexts⟩ := List.forall_mem_cons.mp h
    simp only [parseStatList, bind_eq_ok, parseSerializedStat_iff hs, ih htexts]
    constructor
    · intro e
      obtain ⟨_, ⟨l, hl, rfl, rfl⟩, lines, hlines, rfl, rfl⟩ := e
      exact ⟨l :: lines, List.forall_mem_cons.mpr ⟨hl, hlines⟩, rfl, rfl⟩
    · intro e
      obtain ⟨lines, hlines, heq, rfl⟩ := e
      cases lines with
      | nil => cases heq
      | cons l lines =>
        obtain ⟨rfl, rfl⟩ := List.cons.inj heq
        obtain ⟨hl, hlines⟩ := List.forall_mem_cons.mp hlines
        exact ⟨l.stat, ⟨l, hl, rfl, rfl⟩, lines, hlines, rfl, rfl⟩

theorem render_eq (lines : List Line) (rest : String) :
    joinText '\n' (lines.map Line.text ++ [rest]) = render lines ++ rest := by
  rw [joinText_concat, render, List.flatMap_map]

theorem parseSerializedStats_iff {text : String} {stats : StatMap} :
    parseSerializedStats text = .ok stats ↔
    ∃ (lines : List Line) (rest : String), (∀ l ∈ lines, l.Ok) ∧ '\n' ∉ rest.toList ∧
      text = render lines ++ rest ∧
      stats = collect lines := by
  simp only [parseSerializedStats, bind_eq_ok, rejectIf_eq_ok]
  constructor
  · intro h
    obtain ⟨_, hne, h⟩ := h
    obtain ⟨_, hfree, hjoin⟩ := splitText_eq_iff.mp (Eq.refl (splitText '\n' text))
    obtain ⟨lines, hlines, htexts, rfl⟩ :=
      (parseStatList_iff fun s hs => hfree s (List.mem_of_mem_dropLast hs)).mp h
    refine ⟨lines, (splitText '\n' text).getLast hne, hlines,
      hfree _ (List.getLast_mem hne), ?_, rfl⟩
    rw [← render_eq, ← htexts, List.dropLast_append_getLast hne, hjoin]
  · intro h
    obtain ⟨lines, rest, hlines, hrest, rfl, rfl⟩ := h
    have hsplit : splitText '\n' (render lines ++ rest) = lines.map Line.text ++ [rest] := by
      refine splitText_eq_iff.mpr ⟨by simp, fun t ht => ?_, render_eq lines rest⟩
      rcases List.mem_append.mp ht with ht | ht
      · obtain ⟨l, hl, rfl⟩ := List.mem_map.mp ht
        exact (hlines l hl).noBreak
      · rw [List.mem_singleton.mp ht]
        exact hrest
    rw [hsplit, List.dropLast_concat]
    refine ⟨(), by simp, (parseStatList_iff fun s hs => ?_).mpr ⟨lines, hlines, rfl, rfl⟩⟩
    obtain ⟨l, hl, rfl⟩ := List.mem_map.mp hs
    exact (hlines l hl).noBreak

/-! ## What is written -/

/-- The value that the last line of a name gives a key. -/
def written (lines : List Line) (statName propName : String) : Option String :=
  (lines.reverse.find? fun l => l.name = statName).bind fun l => l.value propName

theorem collect_get (lines : List Line) (statName propName : String) :
    ((collect lines).get statName).bind (fun stat => stat.props.get propName) =
      written lines statName propName := by
  rw [collect, KVStore.get_foldl_set_last, KVStore.get_empty, Option.or_none, written,
    Option.bind_map]
  congr 1
  funext l
  rw [Function.comp_apply, Line.stat, KVStore.get_foldl_set_last, KVStore.get_empty, Option.or_none,
    Line.value]

theorem written_ne_empty {lines : List Line} (h : ∀ l ∈ lines, l.Ok)
    {statName propName value : String}
    (hv : written lines statName propName = some value) : value ≠ "" := by
  obtain ⟨l, hl, hvalue⟩ := Option.bind_eq_some_iff.mp hv
  obtain ⟨p, hp, rfl⟩ := Option.map_eq_some_iff.mp hvalue
  have hl := List.mem_reverse.mp (List.mem_of_find?_eq_some hl)
  exact ((h l hl).props p (List.mem_reverse.mp (List.mem_of_find?_eq_some hp))).2.1

/-! ## Collected errors -/

section
variable {E α β : Type}

/-- A call that reads a value and adds no error, or has no value to read and adds some. -/
def Reads (f : List E → α × List E) (r : Option α) : Prop :=
  ∀ errors, (∃ a, r = some a ∧ f errors = (a, errors)) ∨ r = none ∧
  errors.length < (f errors).2.length

theorem Reads.pure (a : α) : Reads (fun errors : List E => (a, errors)) (some a) :=
  fun _ => Or.inl ⟨a, rfl, rfl⟩

/-- After an error the calls go on, but no value is read. -/
theorem Reads.bind {f : List E → α × List E} {g : α → List E → β × List E} {r : Option α}
    {q : α → Option β} (hf : Reads f r) (hg : ∀ a, Reads (g a) (q a)) :
    Reads (fun errors => g (f errors).1 (f errors).2) (r.bind q) := by
  intro errors
  dsimp only
  rcases hf errors with ⟨a, rfl, hfa⟩ | ⟨rfl, hlt⟩
  · rw [hfa]
    exact hg a errors
  · refine Or.inr ⟨rfl, ?_⟩
    rcases hg (f errors).1 (f errors).2 with ⟨b, _, hgb⟩ | ⟨_, hlt'⟩
    · rw [hgb]
      exact hlt
    · exact lt_trans hlt hlt'

end

section
variable {F φ ε α : Type} (floats : Floats F φ) {lines : List Line}

def readNumber (lines : List Line) (parse : String → Except ε α) (statName propName : String) :
    Option α :=
  (written lines statName propName).bind fun s => (parse s).toOption

/-- What a field has in the text. -/
def readField (lines : List Line) (field : Field) : Option (Value F) :=
  match field.type with
  | .int64 => (readNumber lines parseInt field.statName "COUNT").bind fun v => some (.int64 v)
  | .histogram => do
    let sum ← readNumber lines floats.parseFloat field.statName "SUM"
    let count ← readNumber lines floats.parseFloat field.statName "COUNT"
    let p50 ← readNumber lines floats.parseFloat field.statName "P50"
    let p95 ← readNumber lines floats.parseFloat field.statName "P95"
    let p99 ← readNumber lines floats.parseFloat field.statName "P99"
    let p100 ← readNumber lines floats.parseFloat field.statName "P100"
    return .histogram ⟨sum, count, p50, p95, p99, p100⟩

theorem getStatValue_eq (lines : List Line) (errors : List (LoadError φ))
    (statName propName : String) :
    (∃ value, written lines statName propName = some value ∧
      getStatValue (collect lines) errors statName propName = (value, errors)) ∨
    written lines statName propName = none ∧ ∃ err,
      getStatValue (collect lines) errors statName propName = ("", errors ++ [err]) := by
  rw [← collect_get, getStatValue]
  cases (collect lines).get statName with
  | none => exact Or.inr ⟨rfl, _, rfl⟩
  | some stat =>
    dsimp only [Option.bind_some]
    cases stat.props.get propName with
    | none => exact Or.inr ⟨rfl, _, rfl⟩
    | some prop => exact Or.inl ⟨prop, rfl, rfl⟩

variable (hlines : ∀ l ∈ lines, l.Ok)
include hlines

theorem getStatNumber_reads (parse : String → Except ε α) (wrap : ε → LoadError φ) (zero : α)
    (statName propName : String) :
    Reads (fun errors => getStatNumber (collect lines) (fun s => (parse s).mapError wrap) zero
      errors statName propName)
      (readNumber lines parse statName propName) := by
  intro errors
  dsimp only [getStatNumber, readNumber]
  rcases getStatValue_eq lines errors statName propName with ⟨value, hw, hget⟩ | ⟨hw, err, hget⟩
  · rw [hw, hget, Option.bind_some]
    dsimp only
    rw [if_neg (written_ne_empty hlines hw)]
    cases parse value with
    | ok v => exact Or.inl ⟨v, rfl, rfl⟩
    | error e =>
      refine Or.inr ⟨rfl, ?_⟩
      simp [Except.mapError]
  · rw [hw, hget]
    refine Or.inr ⟨rfl, ?_⟩
    simp

theorem getField_reads (field : Field) :
    Reads (fun errors => getField floats (collect lines) errors field)
      (readField floats lines field) := by
  have hfloat (propName : String) : Reads
      (fun errors => getFloat64StatValue floats (collect lines) errors field.statName propName)
      (readNumber lines floats.parseFloat field.statName propName) :=
        getStatNumber_reads hlines _ _ _ _ _
  unfold getField readField
  cases field.type with
  | int64 => exact (getStatNumber_reads hlines parseInt _ _ _ _).bind fun v => Reads.pure _
  | histogram =>
    exact (hfloat "SUM").bind fun _ => (hfloat "COUNT").bind fun _ => (hfloat "P50").bind fun _ =>
      (hfloat "P95").bind fun _ => (hfloat "P99").bind fun _ => (hfloat "P100").bind fun _ =>
        Reads.pure _

theorem getFields_reads (fields : List Field) :
    Reads (fun errors => getFields floats (collect lines) errors fields)
      (fields.mapM (readField floats lines)) := by
  induction fields with
  | nil => exact Reads.pure []
  | cons field fields ih =>
    rw [List.mapM_cons]
    exact (getField_reads floats hlines field).bind fun _ => ih.bind fun _ => Reads.pure _

theorem load_iff {stats : List (Value F)} :
    load floats (collect lines) = .ok stats ↔ fields.mapM (readField floats lines) =
      some stats := by
  unfold load
  rcases getFields_reads floats hlines fields [] with ⟨values, hr, hget⟩ | ⟨hr, hlt⟩
  · rw [hr]
    dsimp only at hget
    rw [hget]
    simp
  · rw [hr]
    dsimp only at hlt ⊢
    rw [if_neg]
    · simp
    · intro he
      rw [List.isEmpty_iff.mp he] at hlt
      exact absurd hlt (lt_irrefl 0)

end

/-! ## Properties -/

theorem getIntProperties_iff {db : PropsGetter} {propNames : List String} {values : List Nat} :
    getIntProperties db propNames = (values, []) ↔ propNames.mapM db.getIntProperty =
      some values := by
  induction propNames generalizing values with
  | nil => simp [getIntProperties, eq_comm]
  | cons propName propNames ih =>
    rw [getIntProperties, List.mapM_cons]
    cases hp : getIntProperties db propNames with
    | mk rest errorMsgs =>
      dsimp only
      cases db.getIntProperty propName with
      | none => simp
      | some value =>
        cases errorMsgs with
        | nil =>
          have hrest : propNames.mapM db.getIntProperty = some rest := ih.mp hp
          simp [hrest]
        | cons err errorMsgs =>
          have hnone : propNames.mapM db.getIntProperty = none := by
            cases hm : propNames.mapM db.getIntProperty with
            | none => rfl
            | some values =>
              rw [ih.mpr hm] at hp
              cases hp
          simp [hnone]

theorem loadProperties_iff {db : PropsGetter} {props : Properties} : loadProperties db = .ok props ↔
    intProperties.mapM db.getIntProperty = some props.intProperties ∧
      db.getProperty "rocksdb.options-statistics" = props.optionsStatistics ∧
      props.optionsStatistics ≠ "" := by
  unfold loadProperties
  rw [← getIntProperties_iff]
  cases getIntProperties db intProperties with
  | mk values errorMsgs =>
    dsimp only
    by_cases htext : db.getProperty "rocksdb.options-statistics" = ""
    · rw [if_pos htext, if_neg (by simp)]
      constructor
      · intro h
        cases h
      · intro h
        exact absurd (h.2.1.symm.trans htext) h.2.2
    · rw [if_neg htext]
      cases errorMsgs with
      | nil =>
        cases props with
        | mk ints text =>
          simp only [List.isEmpty_nil, if_true, Except.ok.injEq, Properties.mk.injEq, Prod.mk.injEq,
            and_true]
          constructor
          · intro h
            exact ⟨h.1, h.2, h.2 ▸ htext⟩
          · intro h
            exact ⟨h.1, h.2.1⟩
      | cons err errorMsgs => simp

/-- The properties and statistics are loaded if and only if every number is there, the text
of the statistics is lines of a name and properties, and the last line of each field's name
gives it a number. Those numbers are what is loaded. -/
theorem stats_are_those_written {F φ : Type} (floats : Floats F φ) (db : PropsGetter)
    (props : Properties)
    (stats : List (Value F)) : getPropsAndStats floats db = .ok (props, stats) ↔
      intProperties.mapM db.getIntProperty = some props.intProperties ∧
      db.getProperty "rocksdb.options-statistics" = props.optionsStatistics ∧
      props.optionsStatistics ≠ "" ∧
      ∃ (lines : List Line) (rest : String), (∀ l ∈ lines, l.Ok) ∧ '\n' ∉ rest.toList ∧
        props.optionsStatistics = render lines ++ rest ∧ fields.mapM (readField floats lines) =
          some stats := by
  simp only [getPropsAndStats, bind_eq_ok, pure_eq_ok, mapError_eq_ok, loadProperties_iff,
    Prod.mk.injEq]
  constructor
  · intro h
    obtain ⟨props', ⟨hints, htext, hne⟩, statMap, hparse, stats', hload, rfl, rfl⟩ := h
    obtain ⟨lines, rest, hlines, hrest, hrender, rfl⟩ := parseSerializedStats_iff.mp hparse
    exact ⟨hints, htext, hne, lines, rest, hlines, hrest, hrender,
      (load_iff floats hlines).mp hload⟩
  · intro h
    obtain ⟨hints, htext, hne, lines, rest, hlines, hrest, hrender, hfields⟩ := h
    refine ⟨props, ⟨hints, htext, hne⟩, collect lines, ?_, stats,
      (load_iff floats hlines).mpr hfields, rfl, rfl⟩
    exact parseSerializedStats_iff.mpr ⟨lines, rest, hlines, hrest, hrender, rfl⟩

end Opendb

end ZgChain
