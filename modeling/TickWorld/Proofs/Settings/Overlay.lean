import TickWorld.Proofs.Toml.Keys
import TickWorld.Settings.Decode

namespace TickWorld.Settings

open Toml (Entries IsParser)

inductive Key where
  | entityCapacity | poolCapacity
  | tickRate | maxTicks | spawnCount | spawnPerTick | reportInterval | timingLogs
deriving DecidableEq

namespace Key

def name : Key → String
  | entityCapacity => "entity_capacity"
  | poolCapacity => "pool_capacity"
  | tickRate => "tick_rate"
  | maxTicks => "max_ticks"
  | spawnCount => "spawn_count"
  | spawnPerTick => "spawn_per_tick"
  | reportInterval => "report_interval"
  | timingLogs => "enable_timing_logs"

def ofRegistry : Key → Bool
  | entityCapacity | poolCapacity => true
  | _ => false

/-- The numbers that the key may have lie below this. The key that has no bound has a truth
value. -/
def bound? : Key → Option Nat
  | tickRate | spawnCount | spawnPerTick => some UInt32.size
  | maxTicks | reportInterval | entityCapacity | poolCapacity => some UInt64.size
  | timingLogs => none

def Admits (k : Key) : Toml.Value → Prop
  | .integer n => ∃ bound, k.bound? = some bound ∧ 0 ≤ n ∧ n < bound
  | .boolean _ => k.bound? = none
  | _ => False

end Key

def value (s : Settings) : Key → Toml.Value
  | .entityCapacity => .integer s.sizing.entityCapacity
  | .poolCapacity => .integer s.sizing.poolCapacity
  | .tickRate => .integer s.tickRate.toNat
  | .maxTicks => .integer s.maxTicks.toNat
  | .spawnCount => .integer s.spawnCount.toNat
  | .spawnPerTick => .integer s.spawnPerTick.toNat
  | .reportInterval => .integer s.reportInterval.toNat
  | .timingLogs => .boolean s.timingLogs

/-- The table writes a value for a key. -/
def Writes (entries : Entries) (k : Key) (v : Toml.Value) : Prop :=
  if k.ofRegistry then
    ∃ origin inner, ("registry", Toml.Value.table origin inner) ∈ entries ∧ (k.name, v) ∈ inner
  else (k.name, v) ∈ entries

/-- What the table writes has the types and lies in the ranges of the keys. -/
def Typed (entries : Entries) : Prop := ∀ k v, Writes entries k v → k.Admits v

/-- The settings have what the table writes, and the defaults elsewhere. -/
def Overlays (entries : Entries) (s : Settings) : Prop :=
  ∀ k, Writes entries k (s.value k) ∨
    ((∀ v, ¬Writes entries k v) ∧ s.value k = ({} : Settings).value k)

/-- If the document writes something for the registry, it is a table. -/
def RegistryIsTable (parse : String → Option Entries) (text : String) : Prop :=
  ∀ entries v, parse text = some entries → ("registry", v) ∈ entries →
    ∃ origin inner, v = .table origin inner

theorem registryIsTable_of {parse : String → Option Entries} {text : String} {entries : Entries}
    (hd : parse text = some entries)
    (hr : ∀ v, ("registry", v) ∈ entries → ∃ origin inner, v = .table origin inner) :
    RegistryIsTable parse text := by
  intro entries' v hd' hv
  rw [hd, Option.some.injEq] at hd'
  subst hd'
  exact hr v hv

def find? (entries : Entries) (k : Key) : Option Toml.Value :=
  if k.ofRegistry then
    match entries.lookup "registry" with
    | some (.table _ inner) => inner.lookup k.name
    | _ => none
  else entries.lookup k.name

/-- What is found for a key is in order, and the value is this or else the default. -/
def Resolves (k : Key) (found : Option Toml.Value) (v : Toml.Value) : Prop :=
  (∀ w ∈ found, k.Admits w) ∧ v = found.getD (({} : Settings).value k)

variable {entries entries' : Entries} {k : Key} {v : Toml.Value} {s s' : Settings}
  {parse : String → Option Entries} {text text' : String}

theorem writes_iff (h : entries.Unambiguous) : Writes entries k v ↔ find? entries k = some v := by
  rw [Writes, find?]
  cases k.ofRegistry with
  | false => exact h.lookup_eq_some_iff.symm
  | true =>
    simp only [if_true]
    constructor
    · intro hw
      obtain ⟨origin, inner, hr, hm⟩ := hw
      have hl := h.lookup_eq_some_iff.mpr hr
      rw [hl]
      cases h.value hl with
      | table hn hv => exact (Entries.Unambiguous.mk hn hv).lookup_eq_some_iff.mpr hm
    · intro hf
      split at hf
      · rename_i origin inner hl
        exact ⟨origin, inner, Entries.mem_of_lookup_eq_some hl, Entries.mem_of_lookup_eq_some hf⟩
      · cases hf

theorem typed_iff (h : entries.Unambiguous) :
    Typed entries ↔ ∀ k, ∀ w ∈ find? entries k, k.Admits w :=
  forall_congr' fun k => forall_congr' fun v => by rw [writes_iff h, Option.mem_def]

theorem overlays_iff (h : entries.Unambiguous) :
    Overlays entries s ↔ ∀ k, s.value k = (find? entries k).getD (({} : Settings).value k) := by
  refine forall_congr' fun k => ?_
  simp only [writes_iff h]
  cases find? entries k with
  | none => simp
  | some v => simp [eq_comm]

theorem resolves_iff (h : entries.Unambiguous) :
    (∀ k, Resolves k (find? entries k) (s.value k)) ↔ Typed entries ∧ Overlays entries s := by
  rw [typed_iff h, overlays_iff h]
  exact forall_and

theorem eq_of_value (h : ∀ k, s.value k = s'.value k) : s = s' := by
  obtain ⟨⟨entityCapacity, poolCapacity⟩, _, _, _, _, _, _⟩ := s
  obtain ⟨⟨entityCapacity', poolCapacity'⟩, _, _, _, _, _, _⟩ := s'
  have hentity := h .entityCapacity
  have hpool := h .poolCapacity
  have hrate := h .tickRate
  have hmax := h .maxTicks
  have hcount := h .spawnCount
  have hper := h .spawnPerTick
  have hreport := h .reportInterval
  have hlogs := h .timingLogs
  simp only [value, Toml.Value.integer.injEq, Toml.Value.boolean.injEq, Int.ofNat_inj,
    UInt32.toNat_inj, UInt64.toNat_inj] at hentity hpool hrate hmax hcount hper hreport hlogs
  simp only [hentity, hpool, hrate, hmax, hcount, hper, hreport, hlogs]

theorem admits_default (k : Key) : k.Admits (({} : Settings).value k) := by
  cases k with
  | timingLogs => rfl
  | _ => exact ⟨_, rfl, by decide, by decide⟩

/-- The reader reads what the key admits, and what it reads is written so. -/
structure Reads {α : Type} (k : Key) (read : Toml.Value → Option α) (write : α → Toml.Value) :
    Prop where
  eq_some_iff : ∀ v x, read v = some x ↔ k.Admits v ∧ v = write x
  exists_of_admits : ∀ v, k.Admits v → ∃ x, v = write x

section

variable {α : Type} {read : Toml.Value → Option α} {write : α → Toml.Value} {absent x : α}

theorem Reads.fieldOr_eq_some_iff (h : Reads k read write)
    (hd : ({} : Settings).value k = write absent) :
    fieldOr entries k.name absent read = some x ↔
      Resolves k (entries.lookup k.name) (write x) := by
  rw [fieldOr, Resolves]
  cases entries.lookup k.name with
  | some v => simp [h.eq_some_iff, eq_comm]
  | none =>
    simp only [Option.some.injEq, Option.getD_none, Option.not_mem_none, false_implies,
      implies_true, true_and, hd]
    constructor
    · rintro rfl
      rfl
    · intro hx
      -- What is written for both is read as both.
      have hadmits := hd ▸ admits_default k
      have habsent := (h.eq_some_iff _ absent).mpr ⟨hadmits, rfl⟩
      rw [(h.eq_some_iff _ x).mpr ⟨hadmits, hx.symm⟩] at habsent
      exact (Option.some.inj habsent).symm

end

theorem natBelow?_eq_some_iff {bound n : Nat} (hk : k.bound? = some bound) :
    natBelow? bound v = some n ↔ k.Admits v ∧ v = .integer n := by
  cases v with
  | integer m =>
    simp only [natBelow?, Key.Admits, hk, Option.some.injEq, exists_eq_left',
      Toml.Value.integer.injEq, Option.ite_none_right_eq_some]
    constructor
    · rintro ⟨hm, rfl⟩
      exact ⟨hm, (Int.toNat_of_nonneg hm.1).symm⟩
    · rintro ⟨hm, rfl⟩
      exact ⟨hm, Int.toNat_natCast n⟩
  | _ => simp [natBelow?, Key.Admits, hk]

theorem reads_number {α : Type} {bound : Nat} (hk : k.bound? = some bound) (ofNat : Nat → α)
    (toNat : α → Nat) (ho : ∀ x, ofNat (toNat x) = x) (ht : ∀ n < bound, toNat (ofNat n) = n) :
    Reads k (fun v => (natBelow? bound v).map ofNat) fun x => .integer (toNat x) := by
  have hadmits {n : Int} (h : k.Admits (.integer n)) : 0 ≤ n ∧ n.toNat < bound := by
    obtain ⟨bound', hk', hn, hlt⟩ := h
    rw [hk, Option.some.injEq] at hk'
    omega
  constructor
  · intro v x
    rw [Option.map_eq_some_iff]
    constructor
    · rintro ⟨n, hn, rfl⟩
      obtain ⟨ha, rfl⟩ := (natBelow?_eq_some_iff hk).mp hn
      exact ⟨ha, by rw [ht n (hadmits ha).2]⟩
    · rintro ⟨ha, rfl⟩
      exact ⟨toNat x, (natBelow?_eq_some_iff hk).mpr ⟨ha, rfl⟩, ho x⟩
  · intro v ha
    cases v with
    | integer n =>
      obtain ⟨hn, hlt⟩ := hadmits ha
      exact ⟨ofNat n.toNat, by rw [ht _ hlt, Int.toNat_of_nonneg hn]⟩
    | boolean b => rw [Key.Admits, hk] at ha; cases ha
    | _ => exact ha.elim

theorem reads_uint32 (k : Key) (hk : k.bound? = some UInt32.size) :
    Reads k uint32? fun x => .integer x.toNat :=
  reads_number hk UInt32.ofNat UInt32.toNat (fun _ => UInt32.ofNat_toNat)
    fun _ hn => UInt32.toNat_ofNat_of_lt' hn

theorem reads_uint64 (k : Key) (hk : k.bound? = some UInt64.size) :
    Reads k uint64? fun x => .integer x.toNat :=
  reads_number hk UInt64.ofNat UInt64.toNat (fun _ => UInt64.ofNat_toNat)
    fun _ hn => UInt64.toNat_ofNat_of_lt' hn

theorem reads_capacity (k : Key) (hk : k.bound? = some UInt64.size) :
    Reads k capacity? fun n => .integer n := by
  have h := reads_number hk id id (fun _ => rfl) fun _ _ => rfl
  simp only [Option.map_id, id_eq] at h
  exact h

theorem reads_bool (k : Key) (hk : k.bound? = none) : Reads k bool? .boolean := by
  constructor
  · intro v x
    cases v <;> simp [bool?, Key.Admits, hk]
  · intro v ha
    cases v with
    | boolean b => exact ⟨b, rfl⟩
    | integer n =>
      obtain ⟨bound, hb, -⟩ := ha
      rw [hk] at hb
      cases hb
    | _ => exact ha.elim

theorem sizing_ofEntries?_eq_some_iff {inner : Entries} {sizing : Sizing} :
    Sizing.ofEntries? inner = some sizing ↔
      Resolves .entityCapacity (inner.lookup "entity_capacity") (.integer sizing.entityCapacity) ∧
      Resolves .poolCapacity (inner.lookup "pool_capacity") (.integer sizing.poolCapacity) := by
  simp only [Sizing.ofEntries?, Option.bind_eq_bind, Option.bind_eq_some_iff, Option.some.injEq]
  constructor
  · rintro ⟨entityCapacity, hentity, poolCapacity, hpool, rfl⟩
    exact ⟨((reads_capacity .entityCapacity rfl).fieldOr_eq_some_iff rfl).mp hentity,
      ((reads_capacity .poolCapacity rfl).fieldOr_eq_some_iff rfl).mp hpool⟩
  · intro h
    exact ⟨_, ((reads_capacity .entityCapacity rfl).fieldOr_eq_some_iff rfl).mpr h.1,
      _, ((reads_capacity .poolCapacity rfl).fieldOr_eq_some_iff rfl).mpr h.2, rfl⟩

/-- A table without a table for the registry is read like one in which this table is empty. -/
theorem exists_inner
    (hr : ∀ v ∈ entries.lookup "registry", ∃ origin inner, v = .table origin inner) :
    ∃ inner : Entries,
      fieldOr entries "registry" ({} : Settings).sizing Sizing.ofValue? = Sizing.ofEntries? inner ∧
      ∀ k : Key, k.ofRegistry = true → find? entries k = inner.lookup k.name := by
  cases hl : entries.lookup "registry" with
  | none =>
    refine ⟨[], by rw [fieldOr, hl]; rfl, fun k hk => ?_⟩
    rw [find?, if_pos hk, hl]
    rfl
  | some v =>
    obtain ⟨origin, inner, rfl⟩ := hr v hl
    refine ⟨inner, by rw [fieldOr, hl]; rfl, fun k hk => ?_⟩
    rw [find?, if_pos hk, hl]

theorem ofEntries?_eq_some_iff
    (hr : ∀ v ∈ entries.lookup "registry", ∃ origin inner, v = .table origin inner) :
    ofEntries? entries = some s ↔ ∀ k, Resolves k (find? entries k) (s.value k) := by
  obtain ⟨inner, hsizing, hinner⟩ := exists_inner hr
  have hentity := hinner .entityCapacity rfl
  have hpool := hinner .poolCapacity rfl
  simp only [ofEntries?, Option.bind_eq_bind, Option.bind_eq_some_iff, Option.some.injEq, hsizing,
    sizing_ofEntries?_eq_some_iff]
  constructor
  · rintro ⟨sizing, hs, tickRate, hrate, maxTicks, hmax, spawnCount, hcount, spawnPerTick, hper,
      reportInterval, hreport, timingLogs, hlogs, rfl⟩ k
    cases k with
    | entityCapacity => exact hentity ▸ hs.1
    | poolCapacity => exact hpool ▸ hs.2
    | tickRate => exact ((reads_uint32 .tickRate rfl).fieldOr_eq_some_iff rfl).mp hrate
    | maxTicks => exact ((reads_uint64 .maxTicks rfl).fieldOr_eq_some_iff rfl).mp hmax
    | spawnCount => exact ((reads_uint32 .spawnCount rfl).fieldOr_eq_some_iff rfl).mp hcount
    | spawnPerTick =>
      exact ((reads_uint32 .spawnPerTick rfl).fieldOr_eq_some_iff rfl).mp hper
    | reportInterval =>
      exact ((reads_uint64 .reportInterval rfl).fieldOr_eq_some_iff rfl).mp hreport
    | timingLogs => exact ((reads_bool .timingLogs rfl).fieldOr_eq_some_iff rfl).mp hlogs
  · intro h
    exact ⟨s.sizing, ⟨hentity ▸ h .entityCapacity, hpool ▸ h .poolCapacity⟩,
      _, ((reads_uint32 .tickRate rfl).fieldOr_eq_some_iff rfl).mpr (h .tickRate),
      _, ((reads_uint64 .maxTicks rfl).fieldOr_eq_some_iff rfl).mpr (h .maxTicks),
      _, ((reads_uint32 .spawnCount rfl).fieldOr_eq_some_iff rfl).mpr (h .spawnCount),
      _, ((reads_uint32 .spawnPerTick rfl).fieldOr_eq_some_iff rfl).mpr (h .spawnPerTick),
      _, ((reads_uint64 .reportInterval rfl).fieldOr_eq_some_iff rfl).mpr
        (h .reportInterval),
      _, ((reads_bool .timingLogs rfl).fieldOr_eq_some_iff rfl).mpr (h .timingLogs), rfl⟩

theorem exists_value_eq {f : Key → Toml.Value} (h : ∀ k : Key, k.Admits (f k)) :
    ∃ s : Settings, ∀ k, s.value k = f k := by
  have hcapacity (k : Key) (hk : k.bound? = some UInt64.size) :=
    (reads_capacity k hk).exists_of_admits _ (h k)
  have huint32 (k : Key) (hk : k.bound? = some UInt32.size) :=
    (reads_uint32 k hk).exists_of_admits _ (h k)
  have huint64 (k : Key) (hk : k.bound? = some UInt64.size) :=
    (reads_uint64 k hk).exists_of_admits _ (h k)
  obtain ⟨entityCapacity, hentity⟩ := hcapacity .entityCapacity rfl
  obtain ⟨poolCapacity, hpool⟩ := hcapacity .poolCapacity rfl
  obtain ⟨tickRate, hrate⟩ := huint32 .tickRate rfl
  obtain ⟨maxTicks, hmax⟩ := huint64 .maxTicks rfl
  obtain ⟨spawnCount, hcount⟩ := huint32 .spawnCount rfl
  obtain ⟨spawnPerTick, hper⟩ := huint32 .spawnPerTick rfl
  obtain ⟨reportInterval, hreport⟩ := huint64 .reportInterval rfl
  obtain ⟨timingLogs, hlogs⟩ := (reads_bool .timingLogs rfl).exists_of_admits _ (h .timingLogs)
  refine ⟨⟨⟨entityCapacity, poolCapacity⟩, tickRate, maxTicks, spawnCount, spawnPerTick,
    reportInterval, timingLogs⟩, fun k => ?_⟩
  cases k with
  | entityCapacity => exact hentity.symm
  | poolCapacity => exact hpool.symm
  | tickRate => exact hrate.symm
  | maxTicks => exact hmax.symm
  | spawnCount => exact hcount.symm
  | spawnPerTick => exact hper.symm
  | reportInterval => exact hreport.symm
  | timingLogs => exact hlogs.symm

theorem Typed.existsUnique (ht : Typed entries) (h : entries.Unambiguous) :
    ∃! s, Overlays entries s := by
  rw [typed_iff h] at ht
  obtain ⟨s, hs⟩ := exists_value_eq (f := fun k => (find? entries k).getD (({} : Settings).value k))
    fun k => by
      cases hf : find? entries k with
      | none => exact admits_default k
      | some v => exact ht k v hf
  refine ⟨s, (overlays_iff h).mpr hs, fun s' hs' => eq_of_value fun k => ?_⟩
  rw [(overlays_iff h).mp hs' k, hs k]

theorem ofEntries?_iff (hp : IsParser parse) (ht : RegistryIsTable parse text)
    (hd : parse text = some entries) :
    ofEntries? entries = some s ↔ Typed entries ∧ Overlays entries s := by
  have h := hp.unambiguous hd
  rw [ofEntries?_eq_some_iff, resolves_iff h]
  intro v hv
  exact ht entries v hd (h.lookup_eq_some_iff.mp hv)

theorem ofEntries?_eq_none_iff (hp : IsParser parse) (ht : RegistryIsTable parse text)
    (hd : parse text = some entries) :
    ofEntries? entries = none ↔ ¬Typed entries := by
  rw [← not_iff_not, not_not, ← ne_eq, Option.ne_none_iff_exists']
  constructor
  · rintro ⟨s, hs⟩
    exact ((ofEntries?_iff hp ht hd).mp hs).1
  · intro hty
    obtain ⟨s, hs, -⟩ := hty.existsUnique (hp.unambiguous hd)
    exact ⟨s, (ofEntries?_iff hp ht hd).mpr ⟨hty, hs⟩⟩

def excess (s : Settings) : String :=
  "tick_rate " ++ toString s.tickRate.toNat ++ " exceeds 1000"

theorem validate_eq (s : Settings) :
    s.validate = if s.tickRate.toNat ≤ 1000 then .ok () else .error (.invalidConfig s.excess) := by
  have hlt : maxTickRate < s.tickRate ↔ ¬s.tickRate.toNat ≤ 1000 := by
    rw [UInt32.lt_iff_toNat_lt, Nat.not_le]
    rfl
  have htext : " exceeds " ++ toString maxTickRate.toNat = " exceeds 1000" := by decide
  rw [validate, String.append_assoc, htext, ← excess]
  by_cases hrate : s.tickRate.toNat ≤ 1000
  · rw [if_neg (mt hlt.mp (not_not.mpr hrate)), if_pos hrate]
  · rw [if_pos (hlt.mpr hrate), if_neg hrate]

theorem decode_eq (parse : String → Option Entries) (text : String) :
    decode parse text = match (parse text).bind ofEntries? with
      | none => .error .parseConfig
      | some s => if s.tickRate.toNat ≤ 1000 then .ok s else .error (.invalidConfig s.excess) := by
  rw [decode]
  cases (parse text).bind ofEntries? with
  | none => rfl
  | some s =>
    simp only [validate_eq]
    by_cases hrate : s.tickRate.toNat ≤ 1000 <;> simp [hrate]

theorem decode_eq_ok_iff :
    decode parse text = .ok s ↔
      (parse text).bind ofEntries? = some s ∧ s.tickRate.toNat ≤ 1000 := by
  rw [decode_eq]
  cases (parse text).bind ofEntries? with
  | none => simp
  | some s' =>
    by_cases hrate : s'.tickRate.toNat ≤ 1000
    · simp only [hrate, if_true, Except.ok.injEq, Option.some.injEq]
      exact ⟨fun hs => ⟨hs, hs ▸ hrate⟩, And.left⟩
    · simp only [hrate, if_false, reduceCtorEq, Option.some.injEq, false_iff]
      rintro ⟨rfl, hs⟩
      exact hrate hs

theorem decode_eq_invalidConfig_iff {reason : String} :
    decode parse text = .error (.invalidConfig reason) ↔
      ∃ s, (parse text).bind ofEntries? = some s ∧ 1000 < s.tickRate.toNat ∧
        reason = s.excess := by
  rw [decode_eq]
  cases (parse text).bind ofEntries? with
  | none => simp
  | some s =>
    by_cases hrate : s.tickRate.toNat ≤ 1000
    · simp only [hrate, if_true, reduceCtorEq, Option.some.injEq, exists_eq_left', false_iff]
      exact fun hs => absurd hs.1 (Nat.not_lt.mpr hrate)
    · simp only [hrate, if_false, Except.error.injEq, SetupFailure.invalidConfig.injEq,
        Option.some.injEq, exists_eq_left']
      exact ⟨fun hs => ⟨Nat.lt_of_not_le hrate, hs.symm⟩, fun hs => hs.2.symm⟩

theorem decode_eq_parseConfig_iff :
    decode parse text = .error .parseConfig ↔ (parse text).bind ofEntries? = none := by
  rw [decode_eq]
  cases (parse text).bind ofEntries? with
  | none => simp
  | some s => by_cases hrate : s.tickRate.toNat ≤ 1000 <;> simp [hrate]

theorem decode_eq_error {cause : SetupFailure} (ho : decode parse text = .error cause) :
    cause = .parseConfig ∨ ∃ reason, cause = .invalidConfig reason := by
  rw [decode_eq] at ho
  split at ho
  · cases ho
    exact .inl rfl
  · split at ho
    · cases ho
    · cases ho
      exact .inr ⟨_, rfl⟩

theorem bind_ofEntries?_iff (hp : IsParser parse) (ht : RegistryIsTable parse text) :
    (parse text).bind ofEntries? = some s ↔
      ∃ entries, parse text = some entries ∧ Typed entries ∧ Overlays entries s := by
  rw [Option.bind_eq_some_iff]
  exact exists_congr fun entries => and_congr_right fun hd => ofEntries?_iff hp ht hd

theorem bind_ofEntries?_eq_none_iff (hp : IsParser parse) (ht : RegistryIsTable parse text) :
    (parse text).bind ofEntries? = none ↔
      ∀ entries, parse text = some entries → ¬Typed entries := by
  rw [Option.bind_eq_none_iff]
  exact forall_congr' fun entries => imp_congr_right fun hd => ofEntries?_eq_none_iff hp ht hd

theorem bind_ofEntries?_congr (hp : IsParser parse) (ht : RegistryIsTable parse text)
    (ht' : RegistryIsTable parse text')
    (hd : parse text = some entries) (hd' : parse text' = some entries')
    (hw : ∀ k v, Writes entries k v ↔ Writes entries' k v) :
    (parse text').bind ofEntries? = (parse text).bind ofEntries? := by
  have htyped : Typed entries' ↔ Typed entries := by
    simp only [Typed, hw]
  have hoverlays (s : Settings) : Overlays entries' s ↔ Overlays entries s := by
    simp only [Overlays, hw]
  rw [hd, hd', Option.bind_some, Option.bind_some]
  apply Option.ext
  intro s
  rw [ofEntries?_iff hp ht' hd', ofEntries?_iff hp ht hd, htyped, hoverlays]

/-- Whatever the parser, the settings are read exactly if the text is a document, all that it writes
for the known keys has their types and ranges, and the tick rate is then at most a thousand; they
have what is written and the defaults elsewhere. Only a document that is read so far is refused for
its tick rate, and all else is no document of settings. -/
theorem decode_overlays_defaults (hp : IsParser parse) (ht : RegistryIsTable parse text) :
    (∀ s, decode parse text = .ok s ↔ ∃ entries, parse text = some entries ∧ Typed entries ∧
      Overlays entries s ∧ s.tickRate.toNat ≤ 1000) ∧
    (∀ entries, parse text = some entries → Typed entries → ∃! s, Overlays entries s) ∧
    (∀ reason, decode parse text = .error (.invalidConfig reason) ↔
      ∃ entries s, parse text = some entries ∧ Typed entries ∧ Overlays entries s ∧
        1000 < s.tickRate.toNat ∧ reason = s.excess) ∧
    (decode parse text = .error .parseConfig ↔
      ∀ entries, parse text = some entries → ¬Typed entries) ∧
    (∀ cause, decode parse text = .error cause →
      cause = .parseConfig ∨ ∃ reason, cause = .invalidConfig reason) ∧
    ∀ text' entries entries', RegistryIsTable parse text' → parse text = some entries →
      parse text' = some entries' → (∀ k v, Writes entries k v ↔ Writes entries' k v) →
      decode parse text' = decode parse text := by
  refine ⟨fun s => ?_, fun entries hd hty => hty.existsUnique (hp.unambiguous hd),
    fun reason => ?_, ?_, fun cause => decode_eq_error, ?_⟩
  · rw [decode_eq_ok_iff, bind_ofEntries?_iff hp ht]
    simp only [← exists_and_right, and_assoc]
  · rw [decode_eq_invalidConfig_iff, exists_comm]
    simp only [bind_ofEntries?_iff hp ht, ← exists_and_right, and_assoc]
  · rw [decode_eq_parseConfig_iff, bind_ofEntries?_eq_none_iff hp ht]
  · intro text' entries entries' ht' hd hd' hw
    rw [decode_eq, decode_eq, bind_ofEntries?_congr hp ht ht' hd hd' hw]

/-- Two documents write ten ticks and pools of 32, one of them in the table of the registry and
beside a key that is not known. -/
theorem decode_overlays_defaults_partial :
    ∃ text text' : String,
      text = "max_ticks = 10\nspare = true\n[registry]\npool_capacity = 32\n" ∧
      text' = "registry.pool_capacity = 0x20\nmax_ticks = 1_0\n" ∧
      RegistryIsTable Toml.document? text ∧
      ofToml text = .ok { sizing := { poolCapacity := 32 }, maxTicks := 10 } ∧
      ofToml text' = ofToml text := by
  have hd : Toml.document? "max_ticks = 10\nspare = true\n[registry]\npool_capacity = 32\n" =
      some [("max_ticks", .integer 10), ("spare", .boolean true),
        ("registry", .table .header [("pool_capacity", .integer 32)])] := rfl
  have hd' : Toml.document? "registry.pool_capacity = 0x20\nmax_ticks = 1_0\n" =
      some [("registry", .table .dotted [("pool_capacity", .integer 32)]),
        ("max_ticks", .integer 10)] := rfl
  have ht := registryIsTable_of hd (by simp)
  have ht' := registryIsTable_of hd' (by simp)
  obtain ⟨hok, -, -, -, -, hcongr⟩ := decode_overlays_defaults Toml.isParser_document? ht
  refine ⟨_, _, rfl, rfl, ht, (hok _).mpr ⟨_, hd, ?_, ?_, by decide⟩, hcongr _ _ _ ht' hd hd' ?_⟩
  · intro k v hv
    cases k <;> simp [Writes, Key.ofRegistry, Key.name] at hv
    · subst hv
      exact ⟨_, rfl, by decide, by decide⟩
    · subst hv
      exact ⟨_, rfl, by decide, by decide⟩
  · intro k
    cases k <;> simp [Writes, Key.ofRegistry, Key.name, value]
  · intro k v
    cases k <;> simp [Writes, Key.ofRegistry, Key.name]

-- The tick rate is not looked at in a document that is refused for another key.
example : ofToml "tick_rate = 5000" = .error (.invalidConfig "tick_rate 5000 exceeds 1000") := rfl
example : ofToml "tick_rate = 5000\nmax_ticks = -1" = .error .parseConfig := rfl

end TickWorld.Settings
