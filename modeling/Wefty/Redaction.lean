/-
Redaction of process output (`agent/redaction.go`).

The output of a process comes in chunks, and a secret may be cut anywhere between two of them. The
sink keeps back the end of what it has as long as that may turn out to be the head of a secret, and
it never cuts through an occurrence it can see. What it passes on is redacted chunk by chunk.

None of this shows: the redacted chunks are the redacted text. An occurrence that lies across the
cut would have to be complete in the buffer, where the straddle loop sees it, or to go on after its
end, where its head is a pending prefix; and the cut is before neither (`cut_safe`).
-/
import Mathlib.Data.List.Nodup
import Wefty.LogEvents
import Wefty.Substrings

set_option autoImplicit false

namespace Wefty.Redaction

open LogEvents Substrings

variable {buffer : List UInt8} {key : LogStream}

/-! ## 1. The sink -/

/-- The bytes of `[REDACTED]`. -/
def redactedValue : List UInt8 := [91, 82, 69, 68, 65, 67, 84, 69, 68, 93]

structure RedactionStream where
  buffer : List UInt8
  next : ℕ
  template : LogEvent

/-- The streams are a map, which is read in no particular order; here it is a list. -/
structure RedactingOutputSink where
  secrets : List (List UInt8)
  streams : List (LogStream × RedactionStream)

variable {s : RedactingOutputSink}

def replaceSecrets (payload : List UInt8) (secrets : List (List UInt8)) : List UInt8 :=
  secrets.foldl (fun redacted secret => replaceAll redacted secret redactedValue) payload

/-! ## 2. The cut -/

section
variable (secrets : List (List UInt8)) (buffer : List UInt8)

/-- One secret of `pendingSecretPrefix`: the first offset, before the cut so far, whose remainder is
a head of the secret. A remainder as long as the secret is a complete occurrence. -/
def pendingPrefix (cut : ℕ) (secret : List UInt8) : ℕ :=
  let start := buffer.length + 1 - secret.length
  ((List.range' start (min buffer.length cut - start)).find? fun index =>
    buffer.drop index <+: secret).getD cut

def pendingSecretPrefix : ℕ := secrets.foldl (pendingPrefix buffer) buffer.length

/-- The search loop of `safePrefix` for one secret: the occurrences from `search` on, up to the
first that does not begin before the cut. -/
def straddle (secret : List UInt8) (cut search adjusted : ℕ) : ℕ :=
  if search < buffer.length then
    match index (buffer.drop search) secret with
    | none => adjusted
    | some relative =>
      let found := search + relative
      let adjusted' :=
        if found < cut ∧ cut < found + secret.length ∧ found < adjusted then found else adjusted
      if cut ≤ found then adjusted' else straddle secret cut (found + 1) adjusted'
  else adjusted
termination_by buffer.length - search

def adjust (cut : ℕ) : ℕ :=
  secrets.foldl (fun adjusted secret =>
    straddle buffer secret cut (cut + 1 - secret.length) adjusted) cut

theorem straddle_le (secret : List UInt8) (cut search adjusted : ℕ) :
    straddle buffer secret cut search adjusted ≤ adjusted := by
  have hback : ∀ found adjusted : ℕ, (if found < cut ∧ cut < found + secret.length ∧
      found < adjusted then found else adjusted) ≤ adjusted := by
    intro found adjusted
    split
    next h => exact h.2.2.le
    next => exact le_refl adjusted
  fun_induction straddle buffer secret cut search adjusted with
  | case1 | case4 => exact le_refl _
  | case2 search adjusted hlt relative hindex found adjusted' hcut => exact hback found adjusted
  | case3 search adjusted hlt relative hindex found adjusted' hcut ih =>
    exact ih.trans (hback found adjusted)

theorem adjust_fold_le (cut adjusted : ℕ) :
    secrets.foldl (fun adjusted secret =>
      straddle buffer secret cut (cut + 1 - secret.length) adjusted) adjusted ≤ adjusted := by
  induction secrets generalizing adjusted with
  | nil => exact le_refl adjusted
  | cons head rest ih =>
    exact (ih _).trans (straddle_le buffer head cut (cut + 1 - head.length) adjusted)

/-- The loop of `safePrefix`: rounds until the cut stays where it is. -/
def settle (cut : ℕ) : ℕ :=
  if adjust secrets buffer cut = cut then cut else settle (adjust secrets buffer cut)
termination_by cut
decreasing_by
  exact lt_of_le_of_ne (adjust_fold_le secrets buffer cut cut) ‹_›

def safePrefix (stream : RedactionStream) : RedactionStream × List UInt8 :=
  let cut := pendingSecretPrefix secrets stream.buffer
  if cut = 0 then (stream, [])
  else
    let cut := settle secrets stream.buffer cut
    if cut = 0 then (stream, [])
    else
      ({ stream with buffer := stream.buffer.drop cut },
        replaceSecrets (stream.buffer.take cut) secrets)

end

/-! ## 3. Writing and flushing -/

def setStream (streams : List (LogStream × RedactionStream)) (key : LogStream)
    (stream : RedactionStream) : List (LogStream × RedactionStream) :=
  match streams with
  | [] => [(key, stream)]
  | entry :: rest =>
    if entry.1 = key then (key, stream) :: rest else entry :: setStream rest key stream

/-- The sink, and the event it passes on if there is one. What the sink behind it answers changes
nothing here. -/
def writeOutput (s : RedactingOutputSink) (event : LogEvent) :
    RedactingOutputSink × Option LogEvent :=
  let stream := (s.streams.lookup event.stream).getD ⟨[], 0, event⟩
  let stream := { stream with template := event, buffer := stream.buffer ++ event.bytes }
  let (stream, payload) := safePrefix s.secrets stream
  if payload = [] then ({ s with streams := setStream s.streams event.stream stream }, none)
  else
    let passed := { event with bytes := payload, sequence := stream.next }
    let stream := { stream with next := stream.next + 1 }
    ({ s with streams := setStream s.streams event.stream stream }, some passed)

/-- The loop of `Flush`: the streams it leaves, what it passes on, and whether it came to the end.
`accepts` is what the sink behind it answers. -/
def flushStreams (secrets : List (List UInt8)) (accepts : LogEvent → Bool) :
    List (LogStream × RedactionStream) → List (LogStream × RedactionStream) × List LogEvent × Bool
  | [] => ([], [], true)
  | (key, stream) :: rest =>
    if stream.buffer = [] then
      let (flushed, passed, ok) := flushStreams secrets accepts rest
      ((key, stream) :: flushed, passed, ok)
    else
      let event := { stream.template with
        bytes := replaceSecrets stream.buffer secrets
        sequence := stream.next }
      if accepts event then
        let (flushed, passed, ok) := flushStreams secrets accepts rest
        ((key, { stream with next := stream.next + 1, buffer := [] }) :: flushed,
          event :: passed, ok)
      else ((key, stream) :: rest, [event], false)

def flush (s : RedactingOutputSink) (accepts : LogEvent → Bool) :
    RedactingOutputSink × List LogEvent × Bool :=
  let (streams, passed, ok) := flushStreams s.secrets accepts s.streams
  ({ s with streams := streams }, passed, ok)

/-- What the sink passes on of a sequence of writes and the flush after them. -/
def session (s : RedactingOutputSink) (accepts : LogEvent → Bool) : List LogEvent → List LogEvent
  | [] => (flush s accepts).2.1
  | event :: rest =>
    let (s, passed) := writeOutput s event
    passed.toList ++ session s accepts rest

/-! ## 4. Why the cut is safe -/

section
variable {secrets : List (List UInt8)} {buffer : List UInt8}
variable {secret : List UInt8}

/-- A search from some offset finds the first occurrence after it. -/
theorem index_drop_le (hne : secret ≠ []) {search i : ℕ}
    (hsearch : search ≤ i) (hocc : Occurs secret buffer i) :
    ∃ relative, index (buffer.drop search) secret = some relative ∧ search + relative ≤ i := by
  have hend := hocc.add_length_le hne
  have hrest : Occurs secret (buffer.drop search) (i - search) := by
    unfold Occurs at hocc ⊢
    rwa [List.drop_drop, Nat.add_sub_cancel' hsearch]
  obtain ⟨relative, hindex, hle⟩ := index_le_of_occurs hrest (by rw [List.length_drop]; omega)
  exact ⟨relative, hindex, by omega⟩

/-- **One search** moves the cut to the first occurrence that lies across it, or before that. -/
theorem straddle_le_of_occurs (hne : secret ≠ []) {cut search adjusted : ℕ} :
    ∀ i, search ≤ i → i < cut → cut < i + secret.length → Occurs secret buffer i →
      straddle buffer secret cut search adjusted ≤ i := by
  fun_induction straddle buffer secret cut search adjusted with
  | case1 search adjusted hlt hnone =>
    intro i hsearch _ _ hocc
    obtain ⟨relative, hindex, -⟩ := index_drop_le hne hsearch hocc
    rw [hnone] at hindex
    cases hindex
  | case2 search adjusted hlt relative hindex found adjusted' hcut =>
    -- What is found first is at the cut or after it, and so nothing begins before.
    intro i hsearch hstart _ hocc
    obtain ⟨first, hfst, hle⟩ := index_drop_le hne hsearch hocc
    rw [hindex] at hfst
    cases hfst
    omega
  | case3 search adjusted hlt relative hindex found adjusted' hcut ih =>
    intro i hsearch hstart hend hocc
    obtain ⟨first, hfst, hle⟩ := index_drop_le hne hsearch hocc
    rw [hindex] at hfst
    cases hfst
    by_cases hsame : found = i
    · refine (straddle_le buffer secret cut (found + 1) adjusted').trans ?_
      show (if _ then found else adjusted) ≤ i
      split
      next => exact hsame.le
      next hnot =>
        by_contra hlarge
        exact hnot ⟨by omega, by omega, by omega⟩
    · exact ih i (by omega) hstart hend hocc
  | case4 search adjusted hge =>
    intro i hsearch _ _ hocc
    have hend := hocc.add_length_le hne
    have hpos := List.length_pos_iff.mpr hne
    omega

theorem pendingPrefix_spec (cut : ℕ) (secret : List UInt8) :
    pendingPrefix buffer cut secret ≤ cut ∧
      ∀ i, i < buffer.length → buffer.length < i + secret.length → buffer.drop i <+: secret →
        pendingPrefix buffer cut secret ≤ i := by
  unfold pendingPrefix
  dsimp only
  cases hfind : (List.range' (buffer.length + 1 - secret.length)
      (min buffer.length cut - (buffer.length + 1 - secret.length))).find? fun index =>
        buffer.drop index <+: secret with
  | none =>
    rw [Option.getD_none]
    refine ⟨le_refl cut, fun i hstart hend hhead => ?_⟩
    by_contra hlt
    have hmem : i ∈ List.range' (buffer.length + 1 - secret.length)
        (min buffer.length cut - (buffer.length + 1 - secret.length)) := by
      rw [List.mem_range'_1]
      omega
    have hnot := List.find?_eq_none.mp hfind i hmem
    simp [hhead] at hnot
  | some j =>
    obtain ⟨-, hmem, hfst⟩ := List.find?_range'_eq_some.mp hfind
    rw [List.mem_range'_1] at hmem
    rw [Option.getD_some]
    refine ⟨by omega, fun i hstart hend hhead => ?_⟩
    by_contra hlt
    have hnot := hfst i (by omega) (by omega)
    simp [hhead] at hnot

theorem pending_fold_spec (cut : ℕ) :
    secrets.foldl (pendingPrefix buffer) cut ≤ cut ∧
      ∀ secret ∈ secrets, ∀ i, i < buffer.length → buffer.length < i + secret.length →
        buffer.drop i <+: secret → secrets.foldl (pendingPrefix buffer) cut ≤ i := by
  induction secrets generalizing cut with
  | nil => exact ⟨le_refl cut, fun _ h => (by cases h)⟩
  | cons head rest ih =>
    obtain ⟨hback, hhead⟩ := @pendingPrefix_spec buffer cut head
    obtain ⟨hback', hrest⟩ := ih (pendingPrefix buffer cut head)
    refine ⟨hback'.trans hback, fun secret hsec i hstart hend hpre => ?_⟩
    rcases List.mem_cons.mp hsec with rfl | hmem
    · exact hback'.trans (hhead i hstart hend hpre)
    · exact hrest secret hmem i hstart hend hpre

def cutOf (secrets : List (List UInt8)) (buffer : List UInt8) : ℕ :=
  settle secrets buffer (pendingSecretPrefix secrets buffer)

variable (hne : ∀ secret ∈ secrets, secret ≠ [])
include hne

theorem adjust_fold_le_of_occurs (cut adjusted : ℕ) :
    ∀ secret ∈ secrets, ∀ i, i < cut → cut < i + secret.length → Occurs secret buffer i →
      secrets.foldl (fun adjusted secret =>
        straddle buffer secret cut (cut + 1 - secret.length) adjusted) adjusted ≤ i := by
  induction secrets generalizing adjusted with
  | nil =>
    intro secret hsec
    cases hsec
  | cons head rest ih =>
    intro secret hsec i hstart hend hocc
    rcases List.mem_cons.mp hsec with rfl | hmem
    · refine (adjust_fold_le rest buffer cut _).trans ?_
      exact straddle_le_of_occurs (hne secret List.mem_cons_self) i (by omega) hstart hend hocc
    · exact ih (fun v hv => hne v (List.mem_cons_of_mem head hv)) _ secret hmem i hstart hend
        hocc

/-- **The rounds end** at a cut that no occurrence in the buffer lies across. -/
theorem settle_spec (cut : ℕ) :
    settle secrets buffer cut ≤ cut ∧
      ∀ secret ∈ secrets, ¬ Straddles secret buffer (settle secrets buffer cut) := by
  fun_induction settle secrets buffer cut with
  | case1 cut hstays =>
    refine ⟨le_refl cut, ?_⟩
    rintro secret hsec ⟨i, hstart, hend, hocc⟩
    have hle := adjust_fold_le_of_occurs hne cut cut secret hsec i hstart hend hocc
    have hsame : adjust secrets buffer cut = cut := hstays
    unfold adjust at hsame
    omega
  | case2 cut hmvs ih => exact ⟨ih.1.trans (adjust_fold_le secrets buffer cut cut), ih.2⟩

theorem cutOf_le : cutOf secrets buffer ≤ buffer.length :=
  (settle_spec hne _).1.trans (pending_fold_spec buffer.length).1

/-- **The cut is safe**, whatever comes after the buffer. -/
theorem cut_safe (future : List UInt8) :
    ∀ secret ∈ secrets, ¬ Straddles secret (buffer ++ future) (cutOf secrets buffer) := by
  rintro secret hsec ⟨i, hstart, hend, hocc⟩
  obtain ⟨hset, hsafe⟩ := @settle_spec secrets buffer hne (pendingSecretPrefix secrets buffer)
  obtain ⟨hpend, hheads⟩ := @pending_fold_spec secrets buffer buffer.length
  have hcut : cutOf secrets buffer ≤ pendingSecretPrefix secrets buffer := hset
  have hlast : pendingSecretPrefix secrets buffer ≤ buffer.length := hpend
  by_cases hcomplete : i + secret.length ≤ buffer.length
  · -- The occurrence is complete in the buffer, where the rounds saw it.
    exact hsafe secret hsec ⟨i, hstart, hend, occurs_append_left hocc hcomplete⟩
  -- It goes on after the buffer, and so its head is pending.
  have hhead : buffer.drop i <+: secret := by
    unfold Occurs at hocc
    rw [List.drop_append_of_le_length (by omega)] at hocc
    refine List.prefix_of_prefix_length_le (List.prefix_append _ future) hocc ?_
    rw [List.length_drop]
    omega
  have hle : pendingSecretPrefix secrets buffer ≤ i :=
    hheads secret hsec i (by omega) (by omega) hhead
  omega

/-- What `safePrefix` takes off the buffer, and passes on redacted. -/
theorem safePrefix_eq (stream : RedactionStream) :
    safePrefix secrets stream = if cutOf secrets stream.buffer = 0 then (stream, []) else
      ({ stream with buffer := stream.buffer.drop (cutOf secrets stream.buffer) },
        replaceSecrets (stream.buffer.take (cutOf secrets stream.buffer)) secrets) := by
  unfold safePrefix
  by_cases hpend : pendingSecretPrefix secrets stream.buffer = 0
  · have hcut : cutOf secrets stream.buffer = 0 := by
      have hle := (@settle_spec secrets stream.buffer hne
        (pendingSecretPrefix secrets stream.buffer)).1
      rw [hpend] at hle
      unfold cutOf
      rw [hpend]
      omega
    rw [if_pos hcut]
    simp only [hpend, if_true]
  · simp only [hpend, if_false]
    rfl

end

/-! ## 5. What is passed on -/

section
variable {secrets : List (List UInt8)}

/-- The bytes each payload comes from: what is cut off the buffer after each chunk, and what is left
of it in the end. -/
def sources (secrets : List (List UInt8)) : List UInt8 → List (List UInt8) → List (List UInt8)
  | buffer, [] => if buffer = [] then [] else [buffer]
  | buffer, chunk :: rest =>
    let buffer := buffer ++ chunk
    if cutOf secrets buffer = 0 then sources secrets buffer rest
    else
      buffer.take (cutOf secrets buffer) ::
        sources secrets (buffer.drop (cutOf secrets buffer)) rest

theorem sources_flatten {chunks : List (List UInt8)} :
    (sources secrets buffer chunks).flatten = buffer ++ chunks.flatten := by
  induction chunks generalizing buffer with
  | nil =>
    unfold sources
    by_cases hempty : buffer = []
    · rw [if_pos hempty, hempty]
      rfl
    · rw [if_neg hempty]
      rfl
  | cons chunk rest ih =>
    unfold sources
    by_cases hcut : cutOf secrets (buffer ++ chunk) = 0
    · simp only [hcut, if_true]
      rw [ih, List.flatten_cons, List.append_assoc]
    · simp only [hcut, if_false]
      rw [List.flatten_cons, ih, ← List.append_assoc, List.take_append_drop, List.flatten_cons,
        List.append_assoc]

/-- **No secret is cut.** -/
theorem sources_whole (hne : ∀ secret ∈ secrets, secret ≠ []) (buffer : List UInt8)
    (chunks : List (List UInt8)) : Whole secrets (sources secrets buffer chunks) := by
  induction chunks generalizing buffer with
  | nil =>
    unfold sources
    by_cases hempty : buffer = []
    · rw [if_pos hempty]
      trivial
    rw [if_neg hempty]
    refine ⟨?_, trivial⟩
    rintro secret hsec ⟨i, -, hend, hocc⟩
    have hin := hocc.add_length_le (hne secret hsec)
    rw [List.flatten_nil, List.append_nil] at hin
    omega
  | cons chunk rest ih =>
    unfold sources
    by_cases hcut : cutOf secrets (buffer ++ chunk) = 0
    · simp only [hcut, if_true]
      exact ih (buffer ++ chunk)
    simp only [hcut, if_false]
    refine ⟨fun secret hsec => ?_, ih _⟩
    have hsafe := @cut_safe secrets (buffer ++ chunk) hne rest.flatten secret hsec
    have hlength : min (cutOf secrets (buffer ++ chunk)) (buffer ++ chunk).length =
        cutOf secrets (buffer ++ chunk) := Nat.min_eq_left (cutOf_le hne)
    rw [sources_flatten, ← List.append_assoc, List.take_append_drop, List.length_take, hlength]
    exact hsafe

theorem replaceSecrets_ne_nil {payload : List UInt8}
    (h : payload ≠ []) : replaceSecrets payload secrets ≠ [] := by
  unfold replaceSecrets
  induction secrets generalizing payload with
  | nil => exact h
  | cons head rest ih => exact ih (replaceAll_ne_nil h (List.cons_ne_nil _ _))

/-- The sink while only one stream is written: what it holds back, and its next sequence number. -/
def Holds (s : RedactingOutputSink) (key : LogStream) (buffer : List UInt8) (next : ℕ) : Prop :=
  (s.streams = [] ∧ buffer = [] ∧ next = 0) ∨
    ∃ template, s.streams = [(key, ⟨buffer, next, template⟩)]

variable {next : ℕ}

theorem Holds.entry (h : Holds s key buffer next) (event : LogEvent) :
    ∃ template, (s.streams.lookup key).getD ⟨[], 0, event⟩ = ⟨buffer, next, template⟩ ∧
      ∀ stream, setStream s.streams key stream = [(key, stream)] := by
  rcases h with ⟨hstrs, rfl, rfl⟩ | ⟨template, hstrs⟩
  · rw [hstrs]
    exact ⟨event, rfl, fun _ => rfl⟩
  · rw [hstrs]
    refine ⟨template, ?_, fun stream => ?_⟩
    · rw [List.lookup_cons_self, Option.getD_some]
    · rw [setStream, if_pos rfl]

theorem writeOutput_spec (hne : ∀ secret ∈ secrets, secret ≠ []) (hs : s.secrets = secrets)
    {event : LogEvent} (hholds : Holds s event.stream buffer next) :
    let held := buffer ++ event.bytes
    let cut := cutOf secrets held
    (writeOutput s event).1.secrets = secrets ∧
      if cut = 0 then
        (writeOutput s event).2 = none ∧ Holds (writeOutput s event).1 event.stream held next
      else
        (writeOutput s event).2 = some { event with
          bytes := replaceSecrets (held.take cut) secrets
          sequence := next } ∧
        Holds (writeOutput s event).1 event.stream (held.drop cut) (next + 1) := by
  intro held cut
  obtain ⟨template, hlook, hset⟩ := hholds.entry event
  have hpre := safePrefix_eq hne ⟨held, next, event⟩
  unfold writeOutput
  rw [hlook, hs]
  dsimp only
  rw [show (buffer ++ event.bytes) = held from rfl, hpre]
  by_cases hcut : cutOf secrets held = 0
  · rw [if_pos hcut, if_pos (show cut = 0 from hcut)]
    dsimp only
    rw [if_pos rfl, hset]
    exact ⟨rfl, rfl, .inr ⟨event, rfl⟩⟩
  · have hpay : replaceSecrets (held.take (cutOf secrets held)) secrets ≠ [] := by
      refine replaceSecrets_ne_nil fun hempty => ?_
      have hlength := congrArg List.length hempty
      have hle := @cutOf_le secrets held hne
      rw [List.length_take, List.length_nil] at hlength
      omega
    rw [if_neg hcut, if_neg (show ¬ cut = 0 from hcut)]
    dsimp only
    rw [if_neg hpay, hset]
    exact ⟨rfl, rfl, .inr ⟨event, rfl⟩⟩

/-- **The flush** passes on what is held back, if anything is. -/
theorem flush_spec (hs : s.secrets = secrets) {accepts : LogEvent → Bool}
    (hholds : Holds s key buffer next) :
    (flush s accepts).2.1.map LogEvent.bytes =
        (sources secrets buffer []).map (fun piece => replaceSecrets piece secrets) ∧
      (flush s accepts).2.1.map LogEvent.sequence =
        List.range' next (sources secrets buffer []).length := by
  unfold flush sources
  rw [hs]
  rcases hholds with ⟨hstrs, rfl, rfl⟩ | ⟨template, hstrs⟩
  · rw [hstrs]
    exact ⟨rfl, rfl⟩
  rw [hstrs]
  unfold flushStreams
  by_cases hempty : buffer = []
  · rw [if_pos hempty, if_pos hempty]
    exact ⟨rfl, rfl⟩
  · rw [if_neg hempty, if_neg hempty]
    dsimp only
    split
    · exact ⟨rfl, rfl⟩
    · exact ⟨rfl, rfl⟩

/-- **A session**: the payloads are the sources, redacted one by one, and numbered in order. -/
theorem session_spec (hne : ∀ secret ∈ secrets, secret ≠ []) (hs : s.secrets = secrets)
    (accepts : LogEvent → Bool) {events : List LogEvent}
    (hkey : ∀ event ∈ events, event.stream = key) (hholds : Holds s key buffer next) :
    (session s accepts events).map LogEvent.bytes =
        (sources secrets buffer (events.map LogEvent.bytes)).map
          (fun piece => replaceSecrets piece secrets) ∧
      (session s accepts events).map LogEvent.sequence =
        List.range' next (sources secrets buffer (events.map LogEvent.bytes)).length := by
  induction events generalizing s buffer next with
  | nil => exact flush_spec hs hholds
  | cons event rest ih =>
    have hevent : event.stream = key := hkey event List.mem_cons_self
    have hrest : ∀ e ∈ rest, e.stream = key := fun e he => hkey e (List.mem_cons_of_mem event he)
    subst hevent
    obtain ⟨hsecrets, hwrite⟩ := writeOutput_spec hne hs hholds
    unfold session
    rw [List.map_cons, sources]
    dsimp only
    by_cases hcut : cutOf secrets (buffer ++ event.bytes) = 0
    · rw [if_pos hcut] at hwrite
      rw [if_pos hcut, hwrite.1]
      exact ih hsecrets hrest hwrite.2
    · rw [if_neg hcut] at hwrite
      obtain ⟨hbytes, hsequence⟩ := ih hsecrets hrest hwrite.2
      rw [if_neg hcut, hwrite.1]
      simp only [Option.toList_some, List.singleton_append, List.map_cons, hbytes, hsequence,
        List.length_cons, List.range'_succ]
      exact ⟨trivial, trivial⟩

/-- **Redaction does not see the chunks.** However the output of a stream is cut into writes, and
with the flush after them: every occurrence of a secret is inside the bytes that one payload
comes from; the payloads are numbered from 0 without holes; and if no secret overlaps the marker,
what is passed on is the whole output redacted at once, and no secret is in it. -/
theorem redaction_ignores_chunks (secrets : List (List UInt8))
    (hne : ∀ secret ∈ secrets, secret ≠ []) (accepts : LogEvent → Bool) (key : LogStream)
    (events : List LogEvent) (hkey : ∀ event ∈ events, event.stream = key) :
    let input := (events.map LogEvent.bytes).flatten
    let pieces := sources secrets [] (events.map LogEvent.bytes)
    let passed := session ⟨secrets, []⟩ accepts events
    let output := (passed.map LogEvent.bytes).flatten
    pieces.flatten = input ∧
      passed.map LogEvent.bytes = pieces.map (fun piece => replaceSecrets piece secrets) ∧
      passed.map LogEvent.sequence = List.range passed.length ∧
      (∀ secret ∈ secrets, ∀ i, Occurs secret input i → Inside pieces i secret.length) ∧
      ((∀ secret ∈ secrets, Apart secret redactedValue) →
        (∀ secret ∈ secrets, ¬ secret <:+: output) ∧ output = replaceSecrets input secrets) := by
  intro input pieces passed output
  have hholds : Holds ⟨secrets, []⟩ key [] 0 := .inl ⟨rfl, rfl, rfl⟩
  obtain ⟨hbytes, hsequence⟩ := session_spec hne rfl accepts hkey hholds
  have hinput : pieces.flatten = input := sources_flatten
  have hwhole : Whole secrets pieces := sources_whole hne [] (events.map LogEvent.bytes)
  have hcount : passed.length = pieces.length := by
    have hlength := congrArg List.length hbytes
    rwa [List.length_map, List.length_map] at hlength
  refine ⟨hinput, hbytes, ?_, ?_, ?_⟩
  · rw [hcount, List.range_eq_range']
    exact hsequence
  · intro secret hsec i hocc
    rw [← hinput] at hocc
    exact hwhole.inside hsec (hne secret hsec) hocc
  · intro hapart
    have houtput : output = replaceSecrets input secrets := by
      show (passed.map LogEvent.bytes).flatten = _
      rw [hbytes, ← hinput]
      exact hwhole.replaceEach_flatten hne hapart
    refine ⟨fun secret hsec => ?_, houtput⟩
    rw [houtput]
    exact not_infix_replaceEach hne hapart input secret hsec

/-- Three writes of one byte each, `a`, with the secret `aa`: its two occurrences overlap. -/
def threeWrites : List LogEvent :=
  [⟨1, .stdout, 0, 0, [97], none⟩, ⟨1, .stdout, 1, 0, [97], none⟩, ⟨1, .stdout, 2, 0, [97], none⟩]

theorem redaction_ignores_chunks_overlapping :
    Inside (sources [[97, 97]] [] (threeWrites.map LogEvent.bytes)) 1 2 ∧
      ((session ⟨[[97, 97]], []⟩ (fun _ => true) threeWrites).map LogEvent.bytes).flatten =
        replaceSecrets [97, 97, 97] [[97, 97]] ∧
      ¬ [97, 97] <:+: ((session ⟨[[97, 97]], []⟩ (fun _ => true) threeWrites).map
        LogEvent.bytes).flatten := by
  have hredacted := redaction_ignores_chunks [[97, 97]] (by decide) (fun _ => true) .stdout
    threeWrites (by decide)
  have hapart : ∀ secret ∈ [([97, 97] : List UInt8)], Apart secret redactedValue := by
    intro secret hsec
    rw [List.mem_singleton.mp hsec]
    exact apart_of_disjoint (by decide) (by decide) (by simp [redactedValue])
  obtain ⟨-, -, -, hin, hclean⟩ := hredacted
  refine ⟨hin [97, 97] List.mem_cons_self 1 (by decide), (hclean hapart).2, ?_⟩
  exact (hclean hapart).1 [97, 97] List.mem_cons_self

end

end Wefty.Redaction
