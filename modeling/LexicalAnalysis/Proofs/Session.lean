/-
# A session is a list of numbers

However the ways of reading are mixed, and however streams are copied, a session answers like one
that keeps a number for every stream: how many tokens it has yielded (`IndexSession`).  Its answers
are read off the list of tokens and nothing else.

* `Follows`: a session and one of numbers that stand at the same places;
* `Follows.step`: they give the same answer to every step, and still follow each other after it;
* `Follows.pull_of_atEnd`: once all bytes are read, only the end token is left for good;
* `session_refines_index`: all of it over any steps, starting at a new session.

What a step does to the streams is said once, in `Session.step_streams` and
`IndexSession.step_indices`: at most the current one moves, and it never moves back.
-/
import LexicalAnalysis.Proofs.Index
import LexicalAnalysis.Proofs.Segmentation
import LexicalAnalysis.Session

namespace LexicalAnalysis

/-! ## 1. Sessions of numbers -/

/-- A session that keeps, for every stream, how many tokens it has yielded. -/
structure IndexSession where
  source : Source
  indices : List Nat
  /-- The number of the current index, from 0. -/
  current : Nat
  current_lt : current < indices.length

namespace IndexSession

/-- The session of a source, with one index at its start. -/
def ofSource (source : Source) : IndexSession := ⟨source, [0], 0, by simp⟩

/-- How many tokens there are. -/
def size (m : IndexSession) : Nat := m.source.tokens.length

/-- The current index. -/
def index (m : IndexSession) : Nat := m.indices.get ⟨m.current, m.current_lt⟩

/-- Where the current index stands. -/
def position (m : IndexSession) : Position := placeAt m.source.bytes m.index

/-- Whether that is the end of the source. -/
def atEnd (m : IndexSession) : Bool := m.position.offset == m.source.bytes.length

/-- Puts the current index somewhere, but not past the last token. -/
def move (m : IndexSession) (i : Nat) : IndexSession :=
  ⟨m.source, m.indices.set m.current (min i m.size), m.current, by simpa using m.current_lt⟩

/-- Adds an index behind the others. -/
def append (m : IndexSession) (i : Nat) : IndexSession :=
  ⟨m.source, m.indices ++ [i], m.current, by have := m.current_lt; simp; omega⟩

/-- Makes the index of a number current, if there is one. -/
def select (m : IndexSession) (i : Nat) : IndexSession :=
  if h : i < m.indices.length then ⟨m.source, m.indices, i, h⟩ else m

/-- One step.  Pulling yields a token always, `next` only while there is one; the others are
repetitions of `next`, so that they yield the tokens from the index on. -/
def step (m : IndexSession) : Step → Answer × IndexSession
  | .pull => (.token (tokenAt m.source.bytes m.index), m.move (m.index + 1))
  | .next =>
    if m.index = m.size then (.token? none, m)
    else (.token? (some (tokenAt m.source.bytes m.index)), m.move (m.index + 1))
  | .take n => (.tokens ((m.source.tokens.drop m.index).take n), m.move (m.index + n))
  | .nth n => (.token? m.source.tokens[m.index + n]?, m.move (m.index + n + 1))
  | .drain => (.tokens (m.source.tokens.drop m.index), m.move m.size)
  | .count => (.number (m.size - m.index), m.move m.size)
  | .position => (.position m.position, m)
  | .atEnd => (.truth m.atEnd, m)
  | .file => (.name m.source.name, m)
  | .copy => (.number m.indices.length, m.append m.index)
  | .use i => (.number i, m.select i)

/-- The session after some steps. -/
def after (m : IndexSession) (steps : List Step) : IndexSession :=
  steps.foldl (fun m a => (m.step a).2) m

/-- Steps in a row. -/
def run (m : IndexSession) : List Step → List Session.Sight
  | [] => []
  | a :: steps =>
    let (answer, m) := m.step a
    ⟨answer, m.position, m.atEnd⟩ :: run m steps

theorem getElem?_current (m : IndexSession) : m.indices[m.current]? = some m.index := by
  simp [index, m.current_lt]

@[simp] theorem select_source (m : IndexSession) (i : Nat) : (m.select i).source = m.source := by
  simp only [select]; split <;> rfl

@[simp] theorem select_indices (m : IndexSession) (i : Nat) :
    (m.select i).indices = m.indices := by
  simp only [select]; split <;> rfl

/-- **What a step can do to the indices.**  It leaves them as they are, puts the current one
forward, or adds a copy of it. -/
theorem step_indices (m : IndexSession) (a : Step) :
    (m.step a).2.indices = m.indices ∨
      (∃ i, min m.index m.size ≤ i ∧ (m.step a).2.indices = m.indices.set m.current i) ∨
      (m.step a).2.indices = m.indices ++ [m.index] := by
  have hmove : ∀ i, m.index ≤ i ∨ m.size ≤ i → ∃ k, min m.index m.size ≤ k ∧
      (m.move i).indices = m.indices.set m.current k := by
    intro i hi
    exact ⟨min i m.size, by omega, rfl⟩
  cases a with
  | pull => exact .inr (.inl (hmove _ (by omega)))
  | next =>
    simp only [step]
    split
    · exact .inl rfl
    · exact .inr (.inl (hmove _ (by omega)))
  | take n => exact .inr (.inl (hmove _ (by omega)))
  | nth n => exact .inr (.inl (hmove _ (by omega)))
  | drain => exact .inr (.inl (hmove _ (by omega)))
  | count => exact .inr (.inl (hmove _ (by omega)))
  | position | atEnd | file => exact .inl rfl
  | copy => exact .inr (.inr rfl)
  | use i => exact .inl (m.select_indices i)

theorem step_source (m : IndexSession) (a : Step) : (m.step a).2.source = m.source := by
  cases a with
  | next => simp only [step]; split <;> rfl
  | use i => exact m.select_source i
  | _ => rfl

/-- An index that has at most the end token in front of it stays so. -/
theorem step_near_end {m : IndexSession} {j i : Nat} (hj : m.indices[j]? = some i)
    (hi : m.size ≤ i + 1) (a : Step) :
    ∃ k, (m.step a).2.indices[j]? = some k ∧ (m.step a).2.size ≤ k + 1 := by
  have hsize : (m.step a).2.size = m.size := by rw [size, step_source, size]
  rw [hsize]
  rcases m.step_indices a with h | ⟨k, hk, h⟩ | h
  · exact ⟨i, by rw [h, hj], hi⟩
  · by_cases hc : m.current = j
    · subst hc
      have him : m.index = i := by simpa [m.getElem?_current] using hj
      refine ⟨k, by rw [h, List.getElem?_set_self m.current_lt], by omega⟩
    · exact ⟨i, by rw [h, List.getElem?_set_ne hc, hj], hi⟩
  · exact ⟨i, by rw [h, List.getElem?_append_left (List.getElem?_eq_some_iff.mp hj).1, hj], hi⟩

theorem after_near_end {m : IndexSession} {j i : Nat} (hj : m.indices[j]? = some i)
    (hi : m.size ≤ i + 1) (steps : List Step) :
    ∃ k, (m.after steps).indices[j]? = some k ∧ (m.after steps).size ≤ k + 1 := by
  induction steps generalizing m i with
  | nil => exact ⟨i, hj, hi⟩
  | cons a steps ih =>
    obtain ⟨k, hk, hsize⟩ := step_near_end hj hi a
    exact ih hk hsize

end IndexSession

/-! ## 2. What a step does to a session -/

namespace Session

/-- A session after some steps. -/
def after (s : Session) (steps : List Step) : Session := steps.foldl (fun s a => (s.step a).2) s

theorem getElem?_current (s : Session) : s.streams[s.current]? = some s.stream := by
  simp [stream, s.current_lt]

@[simp] theorem select_streams (s : Session) (i : Nat) : (s.select i).streams = s.streams := by
  simp only [select]; split <;> rfl

/-- **What a step can do to the streams.**  It leaves them as they are, moves the current one, or
adds a copy of it. -/
theorem step_streams (s : Session) (a : Step) :
    (s.step a).2.streams = s.streams ∨
      (∃ r, (s.step a).2.streams = s.streams.set s.current r) ∨
      (s.step a).2.streams = s.streams ++ [s.stream] := by
  cases a with
  | next =>
    simp only [step]
    split
    · exact .inl rfl
    · exact .inr (.inl ⟨_, rfl⟩)
  | pull | take | nth | drain | count => exact .inr (.inl ⟨_, rfl⟩)
  | position | atEnd | file => exact .inl rfl
  | copy => exact .inr (.inr rfl)
  | use i => exact .inl (s.select_streams i)

theorem step_source (s : Session) (a : Step) : (s.step a).2.source = s.source := by
  cases a with
  | next => simp only [step]; split <;> rfl
  | use i => simp only [step, select]; split <;> rfl
  | _ => rfl

theorem after_source (s : Session) (steps : List Step) : (s.after steps).source = s.source := by
  induction steps generalizing s with
  | nil => rfl
  | cons a steps ih => exact (ih (s.step a).2).trans (s.step_source a)

/-- No step touches a stream that is not current. -/
theorem step_frame (s : Session) (a : Step) {j : Nat} (hj : j < s.streams.length)
    (hc : j ≠ s.current) : (s.step a).2.streams[j]? = s.streams[j]? := by
  rcases s.step_streams a with h | ⟨r, h⟩ | h
  · rw [h]
  · rw [h, List.getElem?_set_ne (Ne.symm hc)]
  · rw [h, List.getElem?_append_left hj]

end Session

/-! ## 3. Sessions that stand at the same places -/

/-- **A session of numbers and one of streams that stand at the same places**: as many of the one
as of the other, each number saying how many tokens its stream has yielded. -/
structure Follows (m : IndexSession) (s : Session) : Prop where
  source_eq : m.source = s.source
  current_eq : m.current = s.current
  length_eq : m.indices.length = s.streams.length
  indexes : ∀ (j i : Nat) (r : TokenStream), m.indices[j]? = some i → s.streams[j]? = some r →
    TokenStream.Indexes s.source.bytes i r

namespace Follows

theorem ofSource (source : Source) : Follows (.ofSource source) (.ofSource source) where
  source_eq := rfl
  current_eq := rfl
  length_eq := rfl
  indexes j i r hi hr := by
    obtain rfl : i = 0 := List.mem_singleton.mp (List.mem_of_getElem? hi)
    obtain rfl : r = source.stream := List.mem_singleton.mp (List.mem_of_getElem? hr)
    exact TokenStream.indexes_ofBytes source.bytes

variable {m : IndexSession} {s : Session}

theorem stream (h : Follows m s) : TokenStream.Indexes s.source.bytes m.index s.stream := by
  refine h.indexes m.current _ _ m.getElem?_current ?_
  rw [h.current_eq]
  exact s.getElem?_current

theorem size_eq (h : Follows m s) : m.size = (tokenize s.source.bytes).length := by
  rw [IndexSession.size, h.source_eq, Source.tokens]

theorem position_eq (h : Follows m s) : m.position = s.stream.position := by
  rw [IndexSession.position, h.source_eq, h.stream.position_eq]

theorem atEnd_eq (h : Follows m s) : m.atEnd = s.stream.atEnd := by
  rw [Bool.eq_iff_iff, h.stream.atEnd_iff, IndexSession.atEnd, IndexSession.position,
    h.source_eq, beq_iff_eq]

/-- A number and a stream that belong together may take the places of the current ones. -/
theorem replace (h : Follows m s) {i : Nat} {r : TokenStream}
    (hr : TokenStream.Indexes s.source.bytes (min i (tokenize s.source.bytes).length) r) :
    Follows (m.move i) (s.replace r) where
  source_eq := h.source_eq
  current_eq := h.current_eq
  length_eq := by simpa [IndexSession.move, Session.replace] using h.length_eq
  indexes j k t hk ht := by
    simp only [IndexSession.move, Session.replace] at hk ht
    by_cases hc : m.current = j
    · rw [hc, List.getElem?_set_self (hc ▸ m.current_lt)] at hk
      rw [← h.current_eq, hc, List.getElem?_set_self (hc ▸ h.current_eq ▸ s.current_lt)] at ht
      obtain rfl := Option.some.inj hk
      obtain rfl := Option.some.inj ht
      rw [h.size_eq]
      exact hr
    · rw [List.getElem?_set_ne hc] at hk
      rw [List.getElem?_set_ne (h.current_eq ▸ hc)] at ht
      exact h.indexes j k t hk ht

theorem append (h : Follows m s) : Follows (m.append m.index) (s.append s.stream) where
  source_eq := h.source_eq
  current_eq := h.current_eq
  length_eq := by simp [IndexSession.append, Session.append, h.length_eq]
  indexes j k t hk ht := by
    simp only [IndexSession.append, Session.append] at hk ht
    rcases Nat.lt_or_ge j m.indices.length with hj | hj
    · rw [List.getElem?_append_left hj] at hk
      rw [List.getElem?_append_left (h.length_eq ▸ hj)] at ht
      exact h.indexes j k t hk ht
    · rw [List.getElem?_append_right hj] at hk
      rw [List.getElem?_append_right (h.length_eq ▸ hj)] at ht
      obtain rfl : k = m.index := List.mem_singleton.mp (List.mem_of_getElem? hk)
      obtain rfl : t = s.stream := List.mem_singleton.mp (List.mem_of_getElem? ht)
      exact h.stream

theorem select (h : Follows m s) (i : Nat) : Follows (m.select i) (s.select i) := by
  by_cases hi : i < m.indices.length
  · have hs : i < s.streams.length := h.length_eq ▸ hi
    rw [IndexSession.select, Session.select, dif_pos hi, dif_pos hs]
    exact ⟨h.source_eq, rfl, h.length_eq, h.indexes⟩
  · have hs : ¬ i < s.streams.length := h.length_eq ▸ hi
    rw [IndexSession.select, Session.select, dif_neg hi, dif_neg hs]
    exact h

/-- **One step**: the same answer, and the same places after it. -/
theorem step (h : Follows m s) (a : Step) :
    (s.step a).1 = (m.step a).1 ∧ Follows (m.step a).2 (s.step a).2 := by
  have htokens : m.source.tokens = tokenize s.source.bytes := by rw [h.source_eq, Source.tokens]
  cases a with
  | pull =>
    obtain ⟨ht, hr⟩ := h.stream.pull
    refine ⟨?_, h.replace hr⟩
    exact congrArg Answer.token (ht.trans (by rw [h.source_eq]))
  | next =>
    rcases Nat.lt_or_eq_of_le h.stream.le_length with hi | hi
    · obtain ⟨r, hn, -, hr⟩ := h.stream.next?_of_lt hi
      have hne : m.index ≠ m.size := by rw [h.size_eq]; omega
      simp only [Session.step, hn, IndexSession.step, hne, if_false, h.source_eq, true_and]
      refine h.replace ?_
      rw [Nat.min_eq_left hi]
      exact hr
    · have hn : s.stream.next? = none := (hi ▸ h.stream).next?_of_length
      have heq : m.index = m.size := by rw [h.size_eq, hi]
      simp only [Session.step, hn, IndexSession.step, heq, if_true, true_and]
      exact h
  | take n =>
    obtain ⟨ht, hr⟩ := h.stream.take n
    exact ⟨congrArg Answer.tokens (ht.trans (by rw [htokens])), h.replace hr⟩
  | nth n =>
    obtain ⟨ht, hr⟩ := h.stream.nth? n
    exact ⟨congrArg Answer.token? (ht.trans (by rw [htokens])), h.replace hr⟩
  | drain =>
    refine ⟨congrArg Answer.tokens (h.stream.drain_eq.trans (by rw [htokens])), h.replace ?_⟩
    rw [h.size_eq, Nat.min_self]
    exact h.stream.drain
  | count =>
    obtain ⟨hn, hr⟩ := h.stream.count
    refine ⟨congrArg Answer.number (hn.trans (by rw [h.size_eq])), h.replace ?_⟩
    rw [h.size_eq, Nat.min_self]
    exact hr
  | position => exact ⟨congrArg Answer.position h.position_eq.symm, h⟩
  | atEnd => exact ⟨congrArg Answer.truth h.atEnd_eq.symm, h⟩
  | file => exact ⟨congrArg Answer.name (by rw [h.source_eq]), h⟩
  | copy => exact ⟨congrArg Answer.number h.length_eq.symm, h.append⟩
  | use i => exact ⟨rfl, h.select i⟩

/-- **Steps in a row**: the same sights. -/
theorem run (h : Follows m s) (steps : List Step) : s.run steps = m.run steps := by
  induction steps generalizing m s with
  | nil => rfl
  | cons a steps ih =>
    obtain ⟨ha, hs⟩ := h.step a
    simp only [Session.run, IndexSession.run, ha, hs.position_eq, hs.atEnd_eq, ih hs]

theorem after (h : Follows m s) (steps : List Step) : Follows (m.after steps) (s.after steps) := by
  induction steps generalizing m s with
  | nil => exact h
  | cons a steps ih => exact ih (h.step a).2

/-- **The end is final.**  A stream that has read every byte has the end token in front of it, at
the place where it stands, and no steps whatever change that. -/
theorem pull_of_atEnd (h : Follows m s) (he : s.stream.atEnd = true) (later : List Step)
    {r : TokenStream} (hr : (s.after later).streams[s.current]? = some r) :
    r.pull.1 = ⟨⟨.endOfFile, []⟩, s.stream.position⟩ := by
  obtain ⟨hnear, hplace⟩ := h.stream.of_atEnd he
  obtain ⟨k, hk, hsize⟩ :=
    IndexSession.after_near_end m.getElem?_current (h.size_eq ▸ hnear) later
  have hlater := h.after later
  have hindex := hlater.indexes m.current k r hk (h.current_eq ▸ hr)
  rw [hlater.size_eq] at hsize
  rw [hindex.pull.1, tokenAt_of_le hsize, hplace, Session.after_source]
  rfl

end Follows

/-! ## 4. Every session -/

/-- **A session is a list of numbers.**  Over any steps from a new session, every answer and every
place that can be seen is the one that the list of tokens gives for the number of tokens yielded;
the places do not wrap; no step touches a stream that is not current; and a stream that has read
every byte has the end token in front of it from then on, at the very place where it stands. -/
theorem session_refines_index (src : Source) (hsrc : Fits src.bytes) :
    src.tokens.getLast? = some ⟨⟨.endOfFile, []⟩, .after src.bytes⟩ ∧
      (∀ steps, (Session.ofSource src).run steps = (IndexSession.ofSource src).run steps) ∧
      (∀ t ∈ src.tokens, (t.position.overLexeme t.bytes.length).column.toNat =
        t.position.column.toNat + t.bytes.length) ∧
      ∀ steps, ∀ s, s = (Session.ofSource src).after steps →
        (∀ a, ∀ j < s.streams.length, j ≠ s.current →
          (s.step a).2.streams[j]? = s.streams[j]?) ∧
        (s.stream.atEnd = true → ∀ later r, (s.after later).streams[s.current]? = some r →
          r.pull.1 = ⟨⟨.endOfFile, []⟩, s.stream.position⟩) := by
  have hstart := Follows.ofSource src
  refine ⟨?_, hstart.run, ?_, ?_⟩
  · obtain ⟨ts, hts⟩ := exists_tokenize_eq_append src.bytes
    rw [Source.tokens, hts, List.getLast?_concat]
    rfl
  · intro t ht
    exact overLexeme_column_toNat hsrc ht
  · intro steps s hs
    have hm : Follows ((IndexSession.ofSource src).after steps) s := hs ▸ hstart.after steps
    refine ⟨fun a j hj hc => s.step_frame a hj hc, ?_⟩
    intro he later r hr
    exact hm.pull_of_atEnd he later hr

/-- Two streams over `a b` and a blank, which keeps the first one from its end until the end token
is read. -/
theorem session_refines_index_interleaved :
    let src : Source := ⟨"shell", ascii ['a', ' ', 'b', ' ']⟩
    let steps : List Step :=
      [.pull, .copy, .next, .atEnd, .next, .next, .use 1, .take 1, .count, .pull, .use 0, .nth 2]
    Fits src.bytes ∧
      (Session.ofSource src).run steps = (IndexSession.ofSource src).run steps :=
  ⟨by decide, (session_refines_index ⟨"shell", ascii ['a', ' ', 'b', ' ']⟩ (by decide)).2.1 _⟩

end LexicalAnalysis
