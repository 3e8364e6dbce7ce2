import Mathlib.Data.List.TakeDrop
import Mathlib.Data.List.TakeWhile

/-! Lines over a byte stream.  What a writer writes comes to the reader in pieces of any size, and the
reader takes the bytes up to the next newline out of its buffer, or gives up on a line that is longer
than its limit.  The messages that it reads do not depend on the pieces. -/

namespace Data

def newline : UInt8 := 10

/-- `asyncio.StreamReader`. -/
structure StreamReader where
  buffer : List UInt8
  eof : Bool

/-- The end of `readline`, if the buffer and the end of the stream are enough for it. -/
inductive Readline
  | blocked
  | line (data : List UInt8)
  /-- `ValueError`. -/
  | overrun
deriving DecidableEq

namespace StreamReader

variable (limit : Nat) (r : StreamReader)

/-- `readline`; at the end of the stream a line need not have its newline. -/
def readline : Readline × StreamReader :=
  let body := r.buffer.takeWhile (· ≠ newline)
  match r.buffer.dropWhile (· ≠ newline) with
  | _ :: rest =>
    (if limit < body.length then .overrun else .line (body ++ [newline]), { r with buffer := rest })
  | [] =>
    if limit < body.length then (.overrun, { r with buffer := [] })
    else if r.eof then (.line r.buffer, { r with buffer := [] })
    else (.blocked, r)

end StreamReader

def frame (text : List UInt8) : List UInt8 := text ++ [newline]

def frames (texts : List (List UInt8)) : List UInt8 := texts.flatMap frame

@[simp] theorem frames_nil : frames [] = [] := rfl

@[simp] theorem frames_cons (text : List UInt8) (texts : List (List UInt8)) :
    frames (text :: texts) = text ++ newline :: frames texts := by
  simp [frames, frame]

theorem frames_append (texts texts' : List (List UInt8)) :
    frames (texts ++ texts') = frames texts ++ frames texts' :=
  List.flatMap_append

theorem prefix_of_frames {b ahead text : List UInt8} {texts : List (List UInt8)}
    (hb : newline ∉ b) (h : b ++ ahead = frames (text :: texts)) : b <+: text := by
  rw [frames_cons] at h
  rcases List.append_eq_append_iff.mp h with ⟨l, hl, -⟩ | ⟨l, hl, hrest⟩
  · exact ⟨l, hl.symm⟩
  · cases l with
    | nil => exact ⟨[], by simpa using hl⟩
    | cons c l =>
      rw [List.cons_append] at hrest
      obtain ⟨rfl, -⟩ := List.cons.inj hrest
      exact absurd (hl ▸ List.mem_append_right _ List.mem_cons_self) hb

theorem line_of_frames {b rest ahead : List UInt8} {texts : List (List UInt8)}
    (hb : newline ∉ b) (htexts : ∀ t ∈ texts, newline ∉ t)
    (h : b ++ newline :: rest ++ ahead = frames texts) :
    ∃ texts', texts = b :: texts' ∧ rest ++ ahead = frames texts' := by
  cases texts with
  | nil => simp at h
  | cons text texts =>
    rw [List.append_assoc] at h
    obtain ⟨l, hl⟩ := prefix_of_frames hb h
    rw [frames_cons, ← hl, List.append_assoc] at h
    have h' := List.append_cancel_left h
    cases l with
    | nil =>
      refine ⟨texts, ?_, (List.cons.inj h').2⟩
      rw [← hl, List.append_nil]
    | cons c l =>
      obtain ⟨rfl, -⟩ := List.cons.inj h'
      exact absurd (hl ▸ List.mem_append_right _ List.mem_cons_self)
        (htexts text List.mem_cons_self)

/-- What `readline` makes of a stream of lines, where `ahead` has not come yet. -/
inductive Reads (limit : Nat) (r : StreamReader) (ahead : List UInt8) (texts : List (List UInt8)) :
    Readline × StreamReader → Prop
  | line (text : List UInt8) (texts' : List (List UInt8)) (buffer : List UInt8)
      (first : texts = text :: texts') (rest : buffer ++ ahead = frames texts')
      (fits : text.length ≤ limit) :
      Reads limit r ahead texts (.line (frame text), { r with buffer })
  | last (eof : r.eof = true) (fits : r.buffer.length ≤ limit)
      (inside : r.buffer = [] ∨ ∃ text texts', texts = text :: texts' ∧ r.buffer <+: text) :
      Reads limit r ahead texts (.line r.buffer, { r with buffer := [] })
  | overrun (buffer text : List UInt8) (texts' : List (List UInt8)) (first : texts = text :: texts')
      (long : limit < text.length) : Reads limit r ahead texts (.overrun, { r with buffer })
  | blocked (open_ : r.eof = false) : Reads limit r ahead texts (.blocked, r)

theorem takeWhile_append_dropWhile_cons {b rest : List UInt8} {c : UInt8}
    (h : b.dropWhile (· ≠ newline) = c :: rest) :
    c = newline ∧ b = b.takeWhile (· ≠ newline) ++ newline :: rest := by
  have hc : c = newline := by
    have := List.head?_dropWhile_not (fun x => decide (x ≠ newline)) b
    rw [h] at this
    simpa using this
  refine ⟨hc, ?_⟩
  calc
    b = b.takeWhile (· ≠ newline) ++ b.dropWhile (· ≠ newline) :=
      List.takeWhile_append_dropWhile.symm
    _ = b.takeWhile (· ≠ newline) ++ newline :: rest := by rw [h, hc]

theorem newline_not_mem_takeWhile (b : List UInt8) : newline ∉ b.takeWhile (· ≠ newline) := by
  intro h
  simpa using List.mem_takeWhile_imp h

theorem StreamReader.readline_reads (limit : Nat) (r : StreamReader) {ahead : List UInt8}
    {texts : List (List UInt8)} (htexts : ∀ t ∈ texts, newline ∉ t)
    (h : r.buffer ++ ahead = frames texts) : Reads limit r ahead texts (r.readline limit) := by
  have hbody := newline_not_mem_takeWhile r.buffer
  rw [readline]
  split
  · next c rest hdrop =>
    obtain ⟨-, hbuffer⟩ := takeWhile_append_dropWhile_cons hdrop
    rw [hbuffer] at h
    obtain ⟨texts', hfirst, hrest⟩ := line_of_frames hbody htexts h
    split
    · next hlong => exact .overrun _ _ _ hfirst hlong
    · next hfits => exact .line _ _ _ hfirst hrest (Nat.le_of_not_lt hfits)
  · next hdrop =>
    have hbuffer : r.buffer.takeWhile (· ≠ newline) = r.buffer := by
      have := List.takeWhile_append_dropWhile (p := fun x => decide (x ≠ newline)) (l := r.buffer)
      rwa [hdrop, List.append_nil] at this
    have hinside : r.buffer = [] ∨ ∃ text texts', texts = text :: texts' ∧ r.buffer <+: text := by
      cases texts with
      | nil => exact .inl (List.append_eq_nil_iff.mp h).1
      | cons text texts' =>
        exact .inr ⟨text, texts', rfl, prefix_of_frames (hbuffer ▸ hbody) h⟩
    rw [hbuffer]
    split
    · next hlong =>
      rcases hinside with hnil | ⟨text, texts', hfirst, hprefix⟩
      · rw [hnil] at hlong
        exact absurd hlong (Nat.not_lt_zero _)
      · exact .overrun _ _ _ hfirst (Nat.lt_of_lt_of_le hlong hprefix.length_le)
    · next hshort =>
      split
      · next heof => exact .last heof (Nat.le_of_not_lt hshort) hinside
      · next heof => exact .blocked (Bool.eq_false_iff.mpr heof)

/-! ### One direction of a connection -/

/-- What was written, how much of it has come, and the reader at the other end. -/
structure Pipe where
  written : List UInt8
  fed : Nat
  reader : StreamReader

namespace Pipe

def empty : Pipe := ⟨[], 0, ⟨[], false⟩⟩

def write (data : List UInt8) (p : Pipe) : Pipe := { p with written := p.written ++ data }

/-- The next `n` bytes come. -/
def feed (n : Nat) (p : Pipe) : Pipe :=
  { p with
    fed := p.fed + n
    reader := { p.reader with buffer := p.reader.buffer ++ (p.written.drop p.fed).take n } }

def finish (p : Pipe) : Pipe := { p with reader := { p.reader with eof := true } }

def ahead (p : Pipe) : List UInt8 := p.written.drop p.fed

/-- The lines `texts` are still to be read. -/
structure Holds (p : Pipe) (texts : List (List UInt8)) : Prop where
  plain : ∀ t ∈ texts, newline ∉ t
  stream : p.reader.buffer ++ p.ahead = frames texts
  fed_le : p.fed ≤ p.written.length

variable {p : Pipe} {texts : List (List UInt8)}

theorem holds_empty : empty.Holds [] := ⟨by simp, rfl, Nat.le_refl _⟩

theorem Holds.write {text : List UInt8} (h : p.Holds texts) (ht : newline ∉ text) :
    (p.write (frame text)).Holds (texts ++ [text]) := by
  refine ⟨fun t hmem => ?_, ?_, ?_⟩
  · rcases List.mem_append.mp hmem with hmem | hmem
    · exact h.plain t hmem
    · exact List.mem_singleton.mp hmem ▸ ht
  · have hdrop : (p.written ++ frame text).drop p.fed = p.written.drop p.fed ++ frame text :=
      List.drop_append_of_le_length h.fed_le
    show p.reader.buffer ++ (p.written ++ frame text).drop p.fed = _
    rw [hdrop, ← List.append_assoc, show p.reader.buffer ++ p.written.drop p.fed = _ from h.stream,
      frames_append]
    simp [frames]
  · have := h.fed_le
    show p.fed ≤ (p.written ++ frame text).length
    rw [List.length_append]
    omega

theorem Holds.feed {n : Nat} (h : p.Holds texts) (hn : p.fed + n ≤ p.written.length) :
    (p.feed n).Holds texts := by
  refine ⟨h.plain, ?_, hn⟩
  show p.reader.buffer ++ (p.written.drop p.fed).take n ++ p.written.drop (p.fed + n) = _
  rw [List.append_assoc, ← List.drop_drop, List.take_append_drop]
  exact h.stream

theorem Holds.finish (h : p.Holds texts) : p.finish.Holds texts := ⟨h.plain, h.stream, h.fed_le⟩

theorem Holds.reads (h : p.Holds texts) (limit : Nat) :
    Reads limit p.reader p.ahead texts (p.reader.readline limit) :=
  p.reader.readline_reads limit h.plain h.stream

theorem Holds.buffer (h : p.Holds texts) (hall : p.fed = p.written.length) :
    p.reader.buffer = frames texts := by
  have := h.stream
  rwa [ahead, hall, List.drop_length, List.append_nil] at this

end Pipe

end Data
