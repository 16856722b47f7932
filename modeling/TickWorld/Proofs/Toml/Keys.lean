import Mathlib.Data.List.Nodup
import TickWorld.Toml.Document

namespace TickWorld.Toml

/-- No table in the value names a key twice. What stands in an array in brackets is left out: no
key leads into it. -/
inductive Value.Unambiguous : Value → Prop where
  | string (s : String) : Unambiguous (.string s)
  | integer (n : Int) : Unambiguous (.integer n)
  | real (x : Real) : Unambiguous (.real x)
  | boolean (b : Bool) : Unambiguous (.boolean b)
  | moment (m : Moment) : Unambiguous (.moment m)
  | array (items : List Value) : Unambiguous (.array items)
  | table {origin : Origin} {entries : List (String × Value)} :
    (entries.map Prod.fst).Nodup → (∀ entry ∈ entries, Unambiguous entry.2) →
    Unambiguous (.table origin entries)
  | tables {items : List (List (String × Value))} :
    (∀ entries ∈ items, (entries.map Prod.fst).Nodup) →
    (∀ entries ∈ items, ∀ entry ∈ entries, Unambiguous entry.2) → Unambiguous (.tables items)

namespace Entries

structure Unambiguous (entries : Entries) : Prop where
  nodup : (entries.map Prod.fst).Nodup
  values : ∀ entry ∈ entries, entry.2.Unambiguous

variable {entries entries' : Entries} {key : String} {v : Value} {path : List String}

theorem mem_of_lookup_eq_some (h : entries.lookup key = some v) : (key, v) ∈ entries := by
  obtain ⟨l, m, he, -⟩ := List.lookup_eq_some_iff.mp h
  rw [he]
  simp

theorem Unambiguous.lookup_eq_some_iff (h : entries.Unambiguous) :
    entries.lookup key = some v ↔ (key, v) ∈ entries := by
  refine ⟨mem_of_lookup_eq_some, fun hm => ?_⟩
  obtain ⟨l, m, rfl⟩ := List.append_of_mem hm
  refine List.lookup_eq_some_iff.mpr ⟨l, m, rfl, fun entry he => ?_⟩
  have hn := h.nodup
  rw [List.map_append, List.map_cons, List.nodup_middle, List.nodup_cons] at hn
  rw [bne_iff_ne]
  intro hk
  exact hn.1 (List.mem_append_left _ (List.mem_map.mpr ⟨entry, he, hk.symm⟩))

theorem Unambiguous.value (h : entries.Unambiguous) (hl : entries.lookup key = some v) :
    v.Unambiguous :=
  h.values _ (mem_of_lookup_eq_some hl)

theorem unambiguous_nil : Unambiguous [] := ⟨List.nodup_nil, fun entry he => by cases he⟩

theorem map_fst_put (entries : Entries) (key : String) (v : Value) :
    (entries.put key v).map Prod.fst = entries.map Prod.fst := by
  rw [put, List.map_map]
  apply List.map_congr_left
  intro entry he
  by_cases hk : entry.1 = key <;> simp [hk]

theorem Unambiguous.put (h : entries.Unambiguous) (key : String) (hv : v.Unambiguous) :
    (entries.put key v).Unambiguous := by
  constructor
  · rw [map_fst_put]
    exact h.nodup
  · intro entry he
    obtain ⟨entry', he', rfl⟩ := List.mem_map.mp he
    split
    · exact hv
    · exact h.values entry' he'

theorem Unambiguous.append (h : entries.Unambiguous) (hn : entries.lookup key = none)
    (hv : v.Unambiguous) : Unambiguous (entries ++ [(key, v)]) := by
  constructor
  · rw [List.map_append, List.map_singleton, List.nodup_append]
    refine ⟨h.nodup, List.nodup_singleton _, ?_⟩
    rintro _ hk _ hk' rfl
    cases List.mem_singleton.mp hk'
    obtain ⟨entry, he, rfl⟩ := List.mem_map.mp hk
    have hne := List.lookup_eq_none_iff.mp hn entry he
    simp at hne
  · intro entry he
    rcases List.mem_append.mp he with he | he
    · exact h.values entry he
    · cases List.mem_singleton.mp he
      exact hv

theorem Unambiguous.add? (h : entries.Unambiguous) (hv : v.Unambiguous)
    (ha : entries.add? key v = some entries') : entries'.Unambiguous := by
  rw [Entries.add?] at ha
  split at ha
  · cases ha
  · rename_i hn
    cases ha
    exact h.append hn hv

theorem Unambiguous.table (h : entries.Unambiguous) (origin : Origin) :
    (Value.table origin entries).Unambiguous :=
  .table h.nodup h.values

/-- A change deep in a table keeps it unambiguous if it keeps the table that it changes so. -/
theorem Unambiguous.follow (h : entries.Unambiguous) {created : Origin}
    {f : Origin → Entries → Option Entries}
    (hf : ∀ origin inner inner', inner.Unambiguous → f origin inner = some inner' →
      inner'.Unambiguous) {origin : Origin}
    (hx : Entries.follow created f path origin entries = some entries') :
    entries'.Unambiguous := by
  induction path generalizing origin entries entries' with
  | nil => exact hf origin entries entries' h hx
  | cons key path ih =>
    rw [Entries.follow.eq_def] at hx
    simp only at hx
    split at hx
    · rename_i hn
      obtain ⟨inner, hi, rfl⟩ := Option.map_eq_some_iff.mp hx
      exact h.append hn ((ih unambiguous_nil hi).table created)
    · rename_i origin' inner hl
      split at hx
      · cases hx
      · obtain ⟨inner', hi, rfl⟩ := Option.map_eq_some_iff.mp hx
        cases h.value hl with
        | table hn hv => exact h.put key ((ih ⟨hn, hv⟩ hi).table origin')
    · rename_i latest earlier hl
      obtain ⟨latest', hi, rfl⟩ := Option.map_eq_some_iff.mp hx
      cases h.value hl with
      | tables hn hv =>
        rw [List.forall_mem_cons] at hn hv
        have hlatest := ih ⟨hn.1, hv.1⟩ hi
        exact h.put key (.tables (List.forall_mem_cons.mpr ⟨hlatest.nodup, hn.2⟩)
          (List.forall_mem_cons.mpr ⟨hlatest.values, hv.2⟩))
    · cases hx

theorem Unambiguous.assign? (h : entries.Unambiguous) (hv : v.Unambiguous)
    (ha : entries.assign? path key v = some entries') : entries'.Unambiguous := by
  apply h.follow _ ha
  intro origin inner inner' hi hf
  split at hf
  · exact hi.add? hv hf
  · cases hf

theorem Unambiguous.openTable? (h : entries.Unambiguous)
    (ho : entries.openTable? path key = some entries') : entries'.Unambiguous := by
  apply h.follow _ ho
  intro origin inner inner' hi hf
  split at hf
  · rename_i hn
    cases hf
    exact hi.append hn (unambiguous_nil.table .header)
  · rename_i known hl
    cases hf
    cases hi.value hl with
    | table hn hv => exact hi.put key (.table hn hv)
  · cases hf

theorem Unambiguous.openTables? (h : entries.Unambiguous)
    (ho : entries.openTables? path key = some entries') : entries'.Unambiguous := by
  apply h.follow _ ho
  intro origin inner inner' hi hf
  split at hf
  · rename_i hn
    cases hf
    exact hi.append hn (.tables (by simp) (by simp))
  · rename_i items hl
    cases hf
    cases hi.value hl with
    | tables hn hv =>
      exact hi.put key (.tables (List.forall_mem_cons.mpr ⟨unambiguous_nil.nodup, hn⟩)
        (List.forall_mem_cons.mpr ⟨unambiguous_nil.values, hv⟩))
  · cases hf

end Entries

def Sound (read : Reader Value) : Prop :=
  ∀ cs v rest, read cs = some (v, rest) → v.Unambiguous

theorem sound_flat? : Sound flat? := by
  intro cs v rest hr
  rw [flat?] at hr
  split at hr
  · cases hr
    exact .string _
  · simp only [word?] at hr
    split at hr
    · cases hr
      exact .boolean _
    · split at hr
      · cases hr
        exact .boolean _
      · split at hr
        · cases hr
          exact .moment _
        · split at hr
          · cases hr
            exact .integer _
          · obtain ⟨x, -, hx⟩ := Option.map_eq_some_iff.mp hr
            cases hx
            exact .real x

theorem sound_keyValue? {value : Reader Value} (h : Sound value) {cs rest : List Char}
    {key : List String × String} {v : Value} (hr : keyValue? value cs = some ((key, v), rest)) :
    v.Unambiguous := by
  simp only [keyValue?, Option.bind_eq_bind, Option.bind_eq_some_iff] at hr
  obtain ⟨⟨key', cs'⟩, -, hr⟩ := hr
  simp only at hr
  split at hr
  · rw [Option.bind_eq_some_iff] at hr
    obtain ⟨⟨v', rest'⟩, hv, hr⟩ := hr
    cases hr
    exact h _ _ _ hv
  · cases hr

theorem unambiguous_bracedEntries? {value : Reader Value} (h : Sound value) {n : Nat}
    {read entries : Entries} {cs rest : List Char} (hread : read.Unambiguous)
    (hr : bracedEntries? value n read cs = some (entries, rest)) : entries.Unambiguous := by
  induction n generalizing read cs with
  | zero => cases hr
  | succ n ih =>
    simp only [bracedEntries?, Option.bind_eq_bind, Option.bind_eq_some_iff] at hr
    obtain ⟨⟨⟨⟨path, key⟩, v⟩, cs'⟩, hk, hr⟩ := hr
    simp only at hr
    obtain ⟨read', ha, hr⟩ := hr
    have hread' := hread.assign? (sound_keyValue? h hk) ha
    split at hr
    · exact ih hread' hr
    · cases hr
      exact hread'
    · cases hr

theorem sound_value? (depth : Nat) : Sound (value? depth) := by
  induction depth with
  | zero => exact sound_flat?
  | succ depth ih =>
    intro cs v rest hr
    rw [value?.eq_def] at hr
    split at hr
    · rename_i heq
      cases heq
      obtain ⟨⟨items, cs'⟩, -, hx⟩ := Option.map_eq_some_iff.mp hr
      cases hx
      exact .array items
    · rename_i heq
      cases heq
      split at hr
      · cases hr
        exact Entries.unambiguous_nil.table .braces
      · obtain ⟨⟨entries, cs'⟩, he, hx⟩ := Option.map_eq_some_iff.mp hr
        cases hx
        exact (unambiguous_bracedEntries? ih Entries.unambiguous_nil he).table .braces
    · exact sound_flat? _ _ _ hr

theorem unambiguous_line? {d d' : Draft} {cs rest : List Char} (h : d.entries.Unambiguous)
    (hr : line? d cs = some (d', rest)) : d'.entries.Unambiguous := by
  rw [line?.eq_def] at hr
  split at hr
  · simp only [Option.bind_eq_bind, Option.bind_eq_some_iff] at hr
    obtain ⟨⟨⟨path, key⟩, cs'⟩, -, hr⟩ := hr
    simp only at hr
    obtain ⟨entries, ho, cs'', -, hr⟩ := hr
    cases hr
    exact h.openTables? ho
  · simp only [Option.bind_eq_bind, Option.bind_eq_some_iff] at hr
    obtain ⟨⟨⟨path, key⟩, cs'⟩, -, hr⟩ := hr
    simp only at hr
    obtain ⟨entries, ho, cs'', -, hr⟩ := hr
    cases hr
    exact h.openTable? ho
  · split at hr
    · cases hr
      exact h
    · simp only [Option.bind_eq_bind, Option.bind_eq_some_iff] at hr
      obtain ⟨⟨⟨⟨path, key⟩, v⟩, cs'⟩, hk, hr⟩ := hr
      simp only at hr
      obtain ⟨cs'', -, d'', hd, hr⟩ := hr
      cases hr
      obtain ⟨entries, he, rfl⟩ := Option.map_eq_some_iff.mp hd
      apply h.follow _ he
      intro origin inner inner' hi ha
      exact hi.assign? (sound_keyValue? (sound_value? _) hk) ha

theorem unambiguous_lines? {n : Nat} {d : Draft} {cs : List Char} {entries : Entries}
    (h : d.entries.Unambiguous) (hr : lines? n d cs = some entries) : entries.Unambiguous := by
  induction n generalizing d cs with
  | zero =>
    cases cs with
    | nil =>
      cases hr
      exact h
    | cons c cs => cases hr
  | succ n ih =>
    cases cs with
    | nil =>
      cases hr
      exact h
    | cons c cs =>
      simp only [lines?] at hr
      split at hr
      · cases hr
      · rename_i d' cs' hl
        exact ih (unambiguous_line? h hl) hr

theorem unambiguous_document? {text : String} {entries : Entries}
    (hr : document? text = some entries) : entries.Unambiguous :=
  unambiguous_lines? Entries.unambiguous_nil hr

/-- What is asked of a parser of documents: it refuses a text that names a key of a table twice. -/
structure IsParser (parse : String → Option Entries) : Prop where
  unambiguous : ∀ {text : String} {entries : Entries}, parse text = some entries →
    entries.Unambiguous

theorem isParser_document? : IsParser document? := ⟨unambiguous_document?⟩

end TickWorld.Toml
