import Mathlib.Data.Nat.Digits.Defs
import StallSim.Trace

/-!
# What the digest of a trace tells

The digest of a trace is made in two stages.  The entries are written out as bytes, one behind the
other and without anything between them; then the digest takes in byte after byte.  The first stage
loses nothing: a word takes eight bytes, and a text says first how long it is, so whoever reads the
bytes from the left knows at every place what comes next.  The second stage has to lose something,
but no single step does: a step can be undone where the byte is known, and no two bytes do the same
to a digest.

* `TraceEntry.fields`, `Trace.fields` — what the bytes are to tell: times, ids, the texts of the
  sources, and descriptions.
* `TraceEntry.Fits` — the numbers of an entry fit in words.
* `Digest.primeInverse` — the multiplier that undoes a multiplication by `Digest.prime`.

Principal results: `TraceEntry.hashInput_append_inj` — an entry can be cut off what follows it in
one way only; `trace_bytes_unambiguous` — traces have the same bytes exactly if they have the same
fields, and none is mistaken for the beginning of another; `Digest.absorbAll_inj` — different
digests stay different whatever they take in; `digest_keeps_difference` — so do the digests of
traces, and a difference in one byte always shows.
-/

set_option autoImplicit false

namespace StallSim

/-! ## Words and texts as bytes -/

/-- The low bytes of a number are its last digits in base 256. -/
theorem ofDigits_lowBytes (count n : Nat) :
    Nat.ofDigits 256 ((lowBytes count n).map UInt8.toNat) = n % 256 ^ count := by
  induction count generalizing n with
  | zero => simp [lowBytes, Nat.mod_one]
  | succ count ih =>
    have hbyte : (UInt8.ofNat n).toNat = n % 256 := UInt8.toNat_ofNat'
    rw [lowBytes, List.map_cons, Nat.ofDigits_cons, ih, hbyte, Nat.pow_succ', Nat.mod_mul]

/-- A number with no more digits than that is determined by them. -/
theorem lowBytes_inj {count m n : Nat} (hm : m < 256 ^ count) (hn : n < 256 ^ count)
    (same : lowBytes count m = lowBytes count n) : m = n := by
  have hdigits := ofDigits_lowBytes count m
  rw [same, ofDigits_lowBytes, Nat.mod_eq_of_lt hm, Nat.mod_eq_of_lt hn] at hdigits
  exact hdigits.symm

variable {xs ys : List UInt8}

/-- A word can be cut off what follows it in one way only. -/
theorem wordBytes_append_inj {m n : Nat} (hm : m < UInt64.size) (hn : n < UInt64.size)
    (same : wordBytes m ++ xs = wordBytes n ++ ys) : m = n ∧ xs = ys := by
  have hsize : UInt64.size = 256 ^ 8 := by decide
  have hlength : (wordBytes m).length = (wordBytes n).length := by
    rw [length_wordBytes, length_wordBytes]
  obtain ⟨hword, hrest⟩ := List.append_inj same hlength
  rw [hsize] at hm hn
  exact ⟨lowBytes_inj hm hn hword, hrest⟩

/-- A text can be cut off what follows it in one way only: its length comes first. -/
theorem textBytes_append_inj {s t : String} (hs : (utf8Bytes s).length < UInt64.size)
    (ht : (utf8Bytes t).length < UInt64.size) (same : textBytes s ++ xs = textBytes t ++ ys) :
    s = t ∧ xs = ys := by
  rw [textBytes, textBytes, List.append_assoc, List.append_assoc] at same
  obtain ⟨hlength, hbytes⟩ := wordBytes_append_inj hs ht same
  obtain ⟨htext, hrest⟩ := List.append_inj hbytes hlength
  exact ⟨utf8Bytes_inj.1 htext, hrest⟩

/-! ## Entries as bytes -/

namespace TraceEntry

/-- What the bytes of an entry are to tell. -/
def fields (e : TraceEntry Source) : Instant × EventId × String × String :=
  (e.time, e.event, e.source.label, e.description)

/-- The id of an entry and the lengths of its texts fit in words, as its time does. -/
structure Fits (e : TraceEntry Source) : Prop where
  event : e.event.raw < UInt64.size
  source : (utf8Bytes e.source.label).length < UInt64.size
  description : (utf8Bytes e.description).length < UInt64.size

variable {d e : TraceEntry Source}

/-- The bytes of an entry tell nothing but its fields. -/
theorem hashInput_congr (same : d.fields = e.fields) : d.hashInput = e.hashInput := by
  simp only [fields, Prod.mk.injEq] at same
  obtain ⟨htime, hevent, hsource, hdescription⟩ := same
  rw [hashInput, htime, hevent, hsource, hdescription, hashInput]

/-- An entry can be cut off what follows it in one way only. -/
theorem hashInput_append_inj (fits : d.Fits) (fits' : e.Fits)
    (same : d.hashInput ++ xs = e.hashInput ++ ys) : d.fields = e.fields ∧ xs = ys := by
  simp only [hashInput, List.append_assoc] at same
  obtain ⟨htime, hbehind⟩ := wordBytes_append_inj d.time.toNat_lt e.time.toNat_lt same
  obtain ⟨hevent, hbehind⟩ := wordBytes_append_inj fits.event fits'.event hbehind
  obtain ⟨hsource, hbehind⟩ := textBytes_append_inj fits.source fits'.source hbehind
  obtain ⟨hdescription, hrest⟩ :=
    textBytes_append_inj fits.description fits'.description hbehind
  refine ⟨?_, hrest⟩
  rw [fields, Instant.toNat_inj.1 htime, EventId.raw_inj.1 hevent, hsource, hdescription, fields]

/-- No entry is without bytes. -/
theorem hashInput_ne_nil (e : TraceEntry Source) : e.hashInput ≠ [] := by
  intro hnil
  have hlength := congrArg List.length hnil
  simp only [hashInput, List.length_append, length_wordBytes, List.length_nil] at hlength
  omega

end TraceEntry

/-! ## Traces as bytes -/

namespace Trace

/-- What the bytes of a trace are to tell. -/
def fields (trace : Trace) : List (Instant × EventId × String × String) :=
  trace.map TraceEntry.fields

theorem hashInput_cons (e : TraceEntry Source) (trace : Trace) :
    hashInput (e :: trace) = e.hashInput ++ hashInput trace :=
  List.flatMap_cons

/-- The bytes of one trace are the first ones of another exactly if its entries are.  The induction
is on the entries of the first trace: each of them is cut off both traces. -/
theorem hashInput_prefix_iff {a b : Trace} (fits : ∀ e ∈ a, e.Fits) (fits' : ∀ e ∈ b, e.Fits) :
    a.hashInput <+: b.hashInput ↔ a.fields <+: b.fields := by
  induction a generalizing b with
  | nil => exact iff_of_true List.nil_prefix List.nil_prefix
  | cons d a ih =>
    obtain ⟨hd, ha⟩ := List.forall_mem_cons.1 fits
    cases b with
    | nil =>
      refine iff_of_false (fun hbegins => ?_) (fun hbegins => ?_)
      · rw [hashInput_cons] at hbegins
        exact d.hashInput_ne_nil (List.append_eq_nil_iff.1 (List.prefix_nil.1 hbegins)).1
      · exact List.cons_ne_nil _ _ (List.prefix_nil.1 hbegins)
    | cons e b =>
      obtain ⟨he, hb⟩ := List.forall_mem_cons.1 fits'
      rw [hashInput_cons, hashInput_cons]
      show _ ↔ d.fields :: fields a <+: e.fields :: fields b
      rw [List.cons_prefix_cons]
      constructor
      · rintro ⟨rest, hrest⟩
        rw [List.append_assoc] at hrest
        obtain ⟨hfields, hbehind⟩ := TraceEntry.hashInput_append_inj hd he hrest
        exact ⟨hfields, (ih ha hb).1 ⟨rest, hbehind⟩⟩
      · rintro ⟨hfields, hbegins⟩
        rw [TraceEntry.hashInput_congr hfields, List.prefix_append_right_inj]
        exact (ih ha hb).2 hbegins

end Trace

/-- Lists are the same if each of them begins with the other. -/
theorem eq_iff_prefixes {α : Type} {l m : List α} : l = m ↔ l <+: m ∧ m <+: l := by
  constructor
  · rintro rfl
    exact ⟨List.prefix_rfl, List.prefix_rfl⟩
  · rintro ⟨hforth, hback⟩
    exact hforth.eq_of_length_le hback.length_le

/-- **The bytes of a trace stand for it alone.**  Two traces whose numbers fit in words have the
same bytes exactly if their entries have, one by one, the same times, ids, texts of the sources and
descriptions; and the bytes of one are the first bytes of another exactly if its entries are the
first entries of the other. -/
theorem trace_bytes_unambiguous {a b : Trace} (fits : ∀ e ∈ a, e.Fits)
    (fits' : ∀ e ∈ b, e.Fits) :
    (a.hashInput = b.hashInput ↔ a.fields = b.fields) ∧
      (a.hashInput <+: b.hashInput ↔ a.fields <+: b.fields) := by
  have hforth := Trace.hashInput_prefix_iff fits fits'
  have hback := Trace.hashInput_prefix_iff fits' fits
  refine ⟨?_, hforth⟩
  rw [eq_iff_prefixes, eq_iff_prefixes, hforth, hback]

/-- An entry of the first submission. -/
def entryAt (time : Instant) (source description : String) : TraceEntry Source :=
  ⟨time, ⟨0⟩, .symbol source, description⟩

/-- One start. -/
def oneStart : Trace := [entryAt ⟨1⟩ "T1" "ab"]

/-- A letter is in the text of the source instead of the description, and a start is behind it. -/
def movedLetter : Trace := [entryAt ⟨1⟩ "T1a" "b", entryAt ⟨1⟩ "T1" ""]

/-- A letter that moves does not go unseen, nor does an entry behind it. -/
theorem trace_bytes_of_moved_letter :
    (∀ e ∈ oneStart, e.Fits) ∧ (∀ e ∈ movedLetter, e.Fits) ∧
      oneStart.hashInput ≠ movedLetter.hashInput ∧
      ¬ oneStart.hashInput <+: movedLetter.hashInput := by
  have hfits : ∀ e ∈ oneStart, e.Fits := by
    rw [oneStart, List.forall_mem_singleton]
    exact ⟨by decide, by decide, by decide⟩
  have hfits' : ∀ e ∈ movedLetter, e.Fits := by
    rw [movedLetter, List.forall_mem_cons, List.forall_mem_singleton]
    exact ⟨⟨by decide, by decide, by decide⟩, ⟨by decide, by decide, by decide⟩⟩
  obtain ⟨heq, hbegins⟩ := trace_bytes_unambiguous hfits hfits'
  exact ⟨hfits, hfits', fun same => absurd (heq.1 same) (by decide),
    fun first => absurd (hbegins.1 first) (by decide)⟩

/-! ## The digest of bytes -/

namespace Digest

/-- The multiplier that undoes a multiplication by `prime`. -/
def primeInverse : UInt64 := 0xce965057aff6957b

theorem prime_mul_primeInverse : prime * primeInverse = 1 := by decide

theorem mul_prime_inj {x y : UInt64} : x * prime = y * prime ↔ x = y := by
  constructor
  · intro same
    have hundone := congrArg (· * primeInverse) same
    simpa only [UInt64.mul_assoc, prime_mul_primeInverse, UInt64.mul_one] using hundone
  · rintro rfl
    rfl

/-- A byte does different things to different digests. -/
theorem absorb_left_inj {c d : UInt64} (byte : UInt8) :
    absorb c byte = absorb d byte ↔ c = d := by
  rw [absorb, absorb, mul_prime_inj, UInt64.xor_left_inj]

/-- Different bytes do different things to a digest. -/
theorem absorb_right_inj (digest : UInt64) {x y : UInt8} :
    absorb digest x = absorb digest y ↔ x = y := by
  rw [absorb, absorb, mul_prime_inj, UInt64.xor_right_inj, UInt8.toUInt64_inj]

/-- Different digests stay different whatever they take in. -/
theorem absorbAll_inj {c d : UInt64} (bytes : List UInt8) :
    absorbAll c bytes = absorbAll d bytes ↔ c = d := by
  induction bytes generalizing c d with
  | nil => exact Iff.rfl
  | cons byte bytes ih => exact ih.trans (absorb_left_inj byte)

end Digest

/-! ## The digest of a trace -/

/-- Lists of one length that differ in exactly one place have the same before it and the same behind
it. -/
theorem split_of_unique_difference {α : Type} {l m : List α} (length : l.length = m.length)
    (differ : ∃! i : Nat, l[i]? ≠ m[i]?) : ∃ before x y behind,
      l = before ++ x :: behind ∧ m = before ++ y :: behind ∧ x ≠ y := by
  obtain ⟨i, hi, only⟩ := differ
  induction l generalizing m i with
  | nil =>
    rw [List.eq_nil_of_length_eq_zero length.symm] at hi
    exact absurd rfl hi
  | cons x l ih =>
    cases m with
    | nil => cases length
    | cons y m =>
      cases i with
      | zero =>
        -- Nothing behind the first place differs.
        have hbehind : l = m := List.ext_getElem? fun j => by
          by_contra hj
          cases only (j + 1) hj
        exact ⟨[], x, y, l, rfl, hbehind ▸ rfl, fun hxy => hi (congrArg some hxy)⟩
      | succ i =>
        have hfirst : x = y := by
          by_contra hxy
          cases only 0 (fun h => hxy (Option.some.inj h))
        obtain ⟨before, u, v, behind, hl, hm, hne⟩ :=
          ih (Nat.succ.inj length) i hi (fun j hj => Nat.succ.inj (only (j + 1) hj))
        exact ⟨x :: before, u, v, behind, congrArg _ hl, hfirst ▸ congrArg _ hm, hne⟩

/-- **No difference is forgotten.**  Traces have the same digest exactly if they have the same
digest with the same entries behind them; and traces whose bytes are equally many and differ in
exactly one place have different digests. -/
theorem digest_keeps_difference (a b : Trace) :
    (∀ c : Trace, Trace.hash (a ++ c) = Trace.hash (b ++ c) ↔ a.hash = b.hash) ∧
      (a.hashInput.length = b.hashInput.length →
        (∃! i : Nat, a.hashInput[i]? ≠ b.hashInput[i]?) → a.hash ≠ b.hash) := by
  refine ⟨fun c => ?_, fun length differ => ?_⟩
  · simp only [Trace.hash, Digest.ofBytes, Trace.hashInput_append, Digest.absorbAll_append]
    exact Digest.absorbAll_inj c.hashInput
  · obtain ⟨before, x, y, behind, ha, hb, hne⟩ := split_of_unique_difference length differ
    intro same
    simp only [Trace.hash, Digest.ofBytes, ha, hb, Digest.absorbAll_append] at same
    exact hne ((Digest.absorb_right_inj _).1 ((Digest.absorbAll_inj behind).1 same))

/-- A start at this time, with another one behind it. -/
def twoStarts (time : Instant) : Trace := [entryAt time "T1" "ab", entryAt ⟨9⟩ "T2" ""]

/-- One tick at the first start shows in the digest, with the other start behind it. -/
theorem digest_keeps_one_tick :
    (twoStarts ⟨1⟩).hashInput.length = (twoStarts ⟨2⟩).hashInput.length ∧
      (∃! i : Nat, (twoStarts ⟨1⟩).hashInput[i]? ≠ (twoStarts ⟨2⟩).hashInput[i]?) ∧
      (twoStarts ⟨1⟩).hash ≠ (twoStarts ⟨2⟩).hash := by
  have hlength : (twoStarts ⟨1⟩).hashInput.length = (twoStarts ⟨2⟩).hashInput.length := by decide
  have hdiffer : ∃! i : Nat, (twoStarts ⟨1⟩).hashInput[i]? ≠ (twoStarts ⟨2⟩).hashInput[i]? := by
    refine ⟨0, by decide, fun i hi => ?_⟩
    cases i with
    | zero => rfl
    | succ i => exact absurd rfl hi
  exact ⟨hlength, hdiffer, (digest_keeps_difference _ _).2 hlength hdiffer⟩

end StallSim
