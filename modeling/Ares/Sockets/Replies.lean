import Mathlib.Data.List.Infix
import Ares.Sockets.Connection

/-! What a request over a socket comes to.  A payload is the one that the work on this very request
ended with, and the notes before it have been handled, all and in order; and where the connection does
not break and the server does not give up, a client that raises says why. -/

namespace Ares.Sockets

open Data

variable {S : Service} {c : Codec} {request : Fields} {k k' : Connection}

namespace Codec

/-- The bytes of a message. -/
def text (c : Codec) (m : Fields) : List UInt8 := (c.dumps m).getD []

theorem text_eq {m : Fields} {b : List UInt8} (h : c.dumps m = some b) : c.text m = b := by
  rw [text, h]
  rfl

end Codec

/-! ### The request -/

/-- The way of the request. -/
structure Asked (c : Codec) (request : Fields) (k : Connection) : Prop where
  unwritten : k.client = .idle ∨ k.client = .connected → k.up.Holds []
  unread : k.server = .absent ∨ k.server = .accepted →
    k.up.Holds [] ∨ ∃ b, c.dumps request = some b ∧ k.up.Holds [b]
  received : ∀ m, k.received = some m →
    m = request ∧ ∃ b, c.dumps request = some b ∧ b.length ≤ streamLimit

variable {r : StreamReader}

theorem holds_nil_of_readline {p : Pipe} {out : Readline} (h : p.Holds [])
    (hr : p.reader.readline streamLimit = (out, r)) : Pipe.Holds { p with reader := r } [] := by
  have hreads := h.reads streamLimit
  rw [hr] at hreads
  have hahead : p.ahead = [] := (List.append_eq_nil_iff.mp h.stream).2
  cases hreads with
  | line text texts' buffer first => cases first
  | overrun buffer text texts' first => cases first
  | last => exact ⟨h.plain, hahead, h.fed_le⟩
  | blocked => exact h

theorem Asked.onRequest {data : List UInt8} (h : Asked c request k)
    (hserver : k.server = .accepted) (hr : k.up.reader.readline streamLimit = (.line data, r)) :
    Asked c request (S.onRequest c data { k with up := { k.up with reader := r } }) := by
  have unwritten : k.client = .idle ∨ k.client = .connected →
      Pipe.Holds { k.up with reader := r } [] := fun hc =>
    holds_nil_of_readline (h.unwritten hc) hr
  have refused : Asked c request
      { k with up := { k.up with reader := r }, server := .answering (.error S.failed) } :=
    ⟨unwritten, by simp, h.received⟩
  rw [Service.onRequest]
  split
  · exact refused
  · next hdata =>
    split
    · next m hm =>
      refine ⟨unwritten, by simp, fun m' hm' => ?_⟩
      obtain rfl : m = m' := Option.some.inj hm'
      -- Only the line of the request can be read as an object.
      rcases h.unread (.inr hserver) with hup | ⟨b, hb, hup⟩
      · have hreads := hup.reads streamLimit
        rw [hr] at hreads
        cases hreads with
        | line text texts' buffer first => cases first
        | last eof fits inside =>
          rcases inside with hnil | ⟨text, texts', first, -⟩
          · exact absurd (.inl hnil) hdata
          · cases first
      · have hreads := hup.reads streamLimit
        rw [hr] at hreads
        cases hreads with
        | line text texts' buffer first rest fits =>
          obtain ⟨rfl, -⟩ := List.cons.inj first
          rw [c.loads_line hb] at hm
          obtain rfl := Json.obj.inj (Option.some.inj hm)
          exact ⟨rfl, b, hb, fits⟩
        | last eof fits inside =>
          rcases inside with hnil | ⟨text, texts', first, hpart⟩
          · exact absurd (.inl hnil) hdata
          · obtain ⟨rfl, -⟩ := List.cons.inj first
            by_cases heq : k.up.reader.buffer = b
            · rw [heq, c.loads_text hb] at hm
              obtain rfl := Json.obj.inj (Option.some.inj hm)
              exact ⟨rfl, b, hb, heq ▸ fits⟩
            · rw [c.loads_part hb hpart heq] at hm
              cases hm
    · exact refused

theorem Asked.client (h : Asked c request k) (step : S.ClientStep c request k k') :
    Asked c request k' := by
  cases step with
  | connect at_ =>
    exact ⟨fun _ => h.unwritten (.inl at_), fun _ => .inl (h.unwritten (.inl at_)), h.received⟩
  | write at_ text hd =>
    have hup := (h.unwritten (.inr at_)).write (c.single hd)
    exact ⟨by simp, fun _ => .inr ⟨text, hd, hup⟩, h.received⟩
  | line at_ data r hr =>
    have hnone : ∀ client, (client = Client.idle ∨ client = .connected → False) →
        ∀ handled, Asked c request { k with
          client, handled, down := { k.down with reader := r } } :=
      fun client hclient handled => ⟨fun hc => (hclient hc).elim, h.unread, h.received⟩
    rw [Service.onLine]
    split
    · exact hnone _ (by simp) k.handled
    · split
      · exact hnone _ (by simp) k.handled
      · split
        · split
          · exact hnone _ (by simp) _
          · exact hnone _ (by simp) k.handled
        · exact hnone _ (by simp) k.handled
  | _ => exact ⟨by simp [Service.quit], h.unread, h.received⟩

theorem Asked.server (h : Asked c request k) (step : S.ServerStep c k k') : Asked c request k' := by
  cases step with
  | line at_ data r hr => exact h.onRequest at_ hr
  | overrun at_ r hr =>
    exact ⟨fun hc => holds_nil_of_readline (h.unwritten hc) hr, by simp, h.received⟩
  | send r at_ => exact ⟨h.unwritten, fun hs => h.unread hs, h.received⟩
  | _ => exact ⟨h.unwritten, by simp, h.received⟩

theorem Asked.network (h : Asked c request k) (step : NetworkStep k k') : Asked c request k' := by
  cases step with
  | feedUp n open_ hn =>
    exact ⟨fun hc => (h.unwritten hc).feed hn,
      fun hs => (h.unread hs).imp (·.feed hn) fun ⟨b, hb, hup⟩ => ⟨b, hb, hup.feed hn⟩, h.received⟩
  | endUp | breakUp =>
    exact ⟨fun hc => (h.unwritten hc).finish,
      fun hs => (h.unread hs).imp (·.finish) fun ⟨b, hb, hup⟩ => ⟨b, hb, hup.finish⟩, h.received⟩
  | feedDown | endDown | breakDown => exact ⟨h.unwritten, h.unread, h.received⟩

/-! ### The server -/

/-- What the server has written, and where it stands. -/
structure Told (S : Service) (c : Codec) (k : Connection) : Prop where
  kinds : ∀ m ∈ k.sent, S.sends m = true ∨
    ∃ r, m = S.final r ∧ ∀ p, r = .ok p → k.finished = some (.ok p) ∧ S.replies p = true
  texts : ∀ m ∈ k.sent, ∃ b, c.dumps m = some b
  waiting : k.server = .absent ∨ k.server = .accepted → k.finished = none
  working : ∀ m, k.server = .working m → k.received = some m ∧ k.finished = none
  answering : ∀ p, k.server = .answering (.ok p) → k.finished = some (.ok p) ∧ S.replies p = true
  finished : k.finished ≠ none → k.received ≠ none
  closed : k.server = .closed → k.aborted = true ∨ ∃ m ∈ k.sent, S.verdict m ≠ .handle
  absent : k.client = .idle → k.server = .absent

theorem Told.done (h : Told S c k) {m : Fields} (hm : m ∈ k.sent) {r : Except Raised Fields}
    (hr : S.verdict m = .done r) :
    (∃ p, r = .ok p ∧ m = S.final (.ok p) ∧ k.finished = some (.ok p)) ∨
      ∃ code code', r = .error (.reported code) ∧ m = S.final (.error code') := by
  rcases h.kinds m hm with hsends | ⟨reply, rfl, hreply⟩
  · rw [S.verdict_sends m hsends] at hr
    cases hr
  · cases reply with
    | ok p =>
      obtain ⟨hfinished, hp⟩ := hreply p rfl
      rw [S.verdict_ok p hp] at hr
      exact .inl ⟨p, (Verdict.done.inj hr).symm, rfl, hfinished⟩
    | error code =>
      obtain ⟨code', hcode⟩ := S.verdict_error code
      rw [hcode] at hr
      exact .inr ⟨code', code, (Verdict.done.inj hr).symm, rfl⟩

theorem Told.client (h : Told S c k) (step : S.ClientStep c request k k') : Told S c k' := by
  cases step with
  | connect at_ =>
    exact ⟨h.kinds, h.texts, fun _ => h.waiting (.inl (h.absent at_)), nofun, nofun, h.finished,
      nofun, nofun⟩
  | line at_ data r hr =>
    have hline : ∀ client handled, client ≠ .idle → Told S c { k with
        client, handled, down := { k.down with reader := r } } := fun _ _ hne =>
      ⟨h.kinds, h.texts, h.waiting, h.working, h.answering, h.finished, h.closed,
        fun hc => absurd hc hne⟩
    rw [Service.onLine]
    split
    · exact hline _ k.handled nofun
    · split
      · exact hline _ k.handled nofun
      · split
        · split
          · exact hline _ _ nofun
          · exact hline _ k.handled nofun
        · exact hline _ k.handled nofun
  | _ => exact ⟨h.kinds, h.texts, h.waiting, h.working, h.answering, h.finished, h.closed, nofun⟩

theorem Told.emit {m : Fields} {text : List UInt8} (server : Server) (h : Told S c k)
    (hm : S.sends m = true ∨
      ∃ r, m = S.final r ∧ ∀ p, r = .ok p → k.finished = some (.ok p) ∧ S.replies p = true)
    (htext : c.dumps m = some text)
    (hwaiting : server = .absent ∨ server = .accepted → k.finished = none)
    (hworking : ∀ m, server = .working m → k.received = some m ∧ k.finished = none)
    (hanswering : ∀ p, server = .answering (.ok p) →
      k.finished = some (.ok p) ∧ S.replies p = true)
    (hclosed : server = .closed → S.verdict m ≠ .handle) (hidle : k.client ≠ .idle) :
    Told S c { Service.emit m text k with server } where
  kinds m' hm' := by
    rcases List.mem_append.mp hm' with hm' | hm'
    · exact h.kinds m' hm'
    · exact List.mem_singleton.mp hm' ▸ hm
  texts m' hm' := by
    rcases List.mem_append.mp hm' with hm' | hm'
    · exact h.texts m' hm'
    · exact List.mem_singleton.mp hm' ▸ ⟨text, htext⟩
  waiting := hwaiting
  working := hworking
  answering := hanswering
  finished := h.finished
  closed hs := .inr ⟨m, by simp [Service.emit], hclosed hs⟩
  absent hc := absurd hc hidle

theorem Told.server (h : Told S c k) (step : S.ServerStep c k k') : Told S c k' := by
  have idle : k.server ≠ .absent → k.client ≠ .idle := fun hne hc => hne (h.absent hc)
  have refused : ∀ {up received}, (k.received ≠ none → received ≠ none) → k.server ≠ .absent →
      Told S c { k with up, received, server := .answering (.error S.failed) } :=
    fun hreceived hne => ⟨h.kinds, h.texts, by simp, by simp, by simp,
      fun hf => hreceived (h.finished hf), by simp, fun hc => absurd hc (idle hne)⟩
  cases step with
  | line at_ data r hr =>
    have hidle := idle (at_ ▸ nofun)
    rw [Service.onRequest]
    split
    · exact refused id (at_ ▸ nofun)
    · split
      · next m hm =>
        refine ⟨h.kinds, h.texts, by simp, fun m' hm' => ?_, by simp, by simp, by simp,
          fun hc => absurd hc hidle⟩
        obtain rfl : m = m' := Server.working.inj hm'
        exact ⟨rfl, h.waiting (.inr at_)⟩
      · exact refused id (at_ ▸ nofun)
  | overrun at_ | timeout at_ => exact refused id (at_ ▸ nofun)
  | retry p at_ => exact refused id (at_ ▸ nofun)
  | send r at_ m text hm htext =>
    have hidle := idle (at_ ▸ nofun)
    refine h.emit k.server (.inl hm) htext h.waiting h.working h.answering ?_ hidle
    rw [at_]
    nofun
  | finish request at_ r hr =>
    have hnone := (h.working request at_).2
    refine ⟨fun m hm => ?_, h.texts, by simp, by simp, fun p hp => ?_,
      fun _ => by simp [(h.working request at_).1], by simp,
      fun hc => absurd hc (idle (at_ ▸ nofun))⟩
    · refine (h.kinds m hm).imp_right fun ⟨r', hr', hp⟩ => ⟨r', hr', fun p heq => ?_⟩
      have := (hp p heq).1
      rw [hnone] at this
      cases this
    · obtain rfl : r = .ok p := Server.answering.inj hp
      exact ⟨rfl, hr p rfl⟩
  | reply r at_ text htext =>
    have hp : ∀ p, r = .ok p → k.finished = some (.ok p) ∧ S.replies p = true :=
      fun p hp => h.answering p (hp ▸ at_)
    refine h.emit _ (.inr ⟨r, rfl, hp⟩) htext (by simp) (by simp) (by simp) (fun _ hhandle => ?_)
      (idle (at_ ▸ nofun))
    cases r with
    | ok p =>
      rw [S.verdict_ok p (hp p rfl).2] at hhandle
      cases hhandle
    | error code =>
      obtain ⟨code', hcode⟩ := S.verdict_error code
      rw [hcode] at hhandle
      cases hhandle
  | undrained p at_ hretries text htext =>
    refine h.emit _ (.inr ⟨.ok p, rfl, fun p' hp => ?_⟩) htext (by simp) (by simp) (by simp)
      (by simp) (idle (at_ ▸ nofun))
    obtain rfl := Except.ok.inj hp
    exact h.answering p at_
  | abort at_ =>
    exact ⟨h.kinds, h.texts, by simp, by simp, by simp, h.finished, fun _ => .inl rfl,
      fun hc => absurd hc (idle at_.1)⟩

theorem Told.network (h : Told S c k) (step : NetworkStep k k') : Told S c k' := by
  cases step <;>
    exact ⟨h.kinds, h.texts, h.waiting, h.working, h.answering, h.finished, h.closed, h.absent⟩

/-! ### The client -/

/-- What can be behind an exception of the client where the connection has not broken and the server
has not given up. -/
def Explained (S : Service) (c : Codec) (k : Connection) : Raised → Prop
  | .disconnected | .invalid | .os => False
  | .overrun => ∃ m ∈ k.sent, streamLimit < (c.text m).length
  | .responseTooLarge =>
    ∃ m ∈ k.sent, S.maxResponse ≤ (c.text m).length ∧ (c.text m).length ≤ streamLimit
  | .reported code => ∃ code', S.final (.error code') ∈ k.sent ∧
      S.verdict (S.final (.error code')) = .done (.error (.reported code))
  | .forbidden | .unavailable | .unencodable | .requestTooLarge | .timeout | .handler
  | .cancelled => True

theorem Explained.mono {e : Raised} {more : List Fields} (h : Explained S c k e)
    (hsent : k'.sent = k.sent ++ more) : Explained S c k' e := by
  cases e with
  | overrun =>
    obtain ⟨m, hm, h⟩ := h
    exact ⟨m, hsent ▸ List.mem_append_left _ hm, h⟩
  | responseTooLarge =>
    obtain ⟨m, hm, h⟩ := h
    exact ⟨m, hsent ▸ List.mem_append_left _ hm, h⟩
  | reported code =>
    obtain ⟨code', hm, h⟩ := h
    exact ⟨code', hsent ▸ List.mem_append_left _ hm, h⟩
  | disconnected | invalid | os => exact h
  | _ => trivial

/-- What the client has read. -/
structure Heard (S : Service) (c : Codec) (k : Connection) : Prop where
  /-- What was sent and not handled is still to be read, unless the end of a broken connection has
  come. -/
  stream : k.client.outcome = none → ∃ rest, k.sent = k.handled ++ rest ∧
    (k.down.Holds (rest.map c.text) ∨ k.broken = true ∧ k.down.reader = ⟨[], true⟩)
  order : k.handled <+: k.sent
  handled : ∀ m ∈ k.handled, S.verdict m = .handle
  eof : k.broken = false → k.down.reader.eof = true →
    k.server = .closed ∧ k.down.fed = k.down.written.length
  ok : ∀ p, k.client.outcome = some (.ok p) → k.finished = some (.ok p) ∧
    ∃ rest, k.sent = k.handled ++ S.final (.ok p) :: rest
  error : ∀ e, k.client.outcome = some (.error e) → k.broken = false → k.aborted = false →
    Explained S c k e
  short : k.client.outcome = some (.error .responseTooLarge) → S.maxResponse ≤ streamLimit

theorem Heard.quit {e : Raised} (h : Heard S c k) (heof : r.eof = k.down.reader.eof)
    (he : k.broken = false → k.aborted = false → Explained S c k e)
    (hshort : e = .responseTooLarge → S.maxResponse ≤ streamLimit) :
    Heard S c (Service.quit e { k with down := { k.down with reader := r } }) where
  stream := nofun
  order := h.order
  handled := h.handled
  eof hb hr := h.eof hb (heof ▸ hr)
  ok := nofun
  error e' heq hb ha := by
    obtain rfl : e = e' := Except.error.inj (Option.some.inj heq)
    exact he hb ha
  short heq := hshort (Except.error.inj (Option.some.inj heq))

/-- The client with a message that it has read. -/
theorem Heard.message {m : Fields} {rest : List Fields} {line : List UInt8}
    (h : Heard S c k) (htold : Told S c k) (hline : c.loads line = some (.obj m))
    (hne : line ≠ []) (hlong : S.maxResponse < line.length →
      S.maxResponse ≤ (c.text m).length ∧ (c.text m).length ≤ streamLimit)
    (hsent : k.sent = k.handled ++ m :: rest) (heof : r.eof = k.down.reader.eof)
    (hrest : Pipe.Holds { k.down with reader := r } (rest.map c.text) ∨
      k.broken = true ∧ r = ⟨[], true⟩) :
    Heard S c (S.onLine c line { k with down := { k.down with reader := r } }) := by
  have hmem : m ∈ k.sent := by simp [hsent]
  rw [Service.onLine, if_neg hne, hline]
  split
  · next htoo =>
    have := hlong htoo
    exact h.quit heof (fun _ _ => ⟨m, hmem, this⟩) fun _ => by omega
  · dsimp only
    split
    · next hm =>
      have hsent' : k.sent = (k.handled ++ [m]) ++ rest := by simp [hsent]
      refine ⟨fun _ => ⟨rest, hsent', hrest⟩, ⟨rest, hsent'.symm⟩, fun m' hm' => ?_,
        fun hb hr => h.eof hb (heof ▸ hr), nofun, nofun, nofun⟩
      rcases List.mem_append.mp hm' with hm' | hm'
      · exact h.handled m' hm'
      · exact List.mem_singleton.mp hm' ▸ hm
    · next reply hm =>
      refine ⟨nofun, h.order, h.handled, fun hb hr => h.eof hb (heof ▸ hr), fun p hp => ?_,
        fun e he _ _ => ?_, fun he => ?_⟩
      · obtain rfl : reply = .ok p := Option.some.inj hp
        rcases htold.done hmem hm with ⟨p', hp', rfl, hfinished⟩ | ⟨code, code', hcode, -⟩
        · obtain rfl := Except.ok.inj hp'
          exact ⟨hfinished, rest, hsent⟩
        · cases hcode
      · obtain rfl : reply = .error e := Option.some.inj he
        rcases htold.done hmem hm with ⟨p', hp', -⟩ | ⟨code, code', hcode, rfl⟩
        · cases hp'
        · obtain rfl := Except.error.inj hcode
          exact ⟨code', hmem, hm⟩
      · obtain rfl : reply = .error .responseTooLarge := Option.some.inj he
        rcases htold.done hmem hm with ⟨p', hp', -⟩ | ⟨code, code', hcode, -⟩
        · cases hp'
        · cases hcode

theorem Heard.noMessage {line : List UInt8} (h : Heard S c k)
    (hline : line = [] ∨ c.loads line = none) (hlength : line.length ≤ streamLimit)
    (heof : r.eof = k.down.reader.eof)
    (hbroken : k.broken = false → k.aborted = false → False) :
    Heard S c (S.onLine c line { k with down := { k.down with reader := r } }) := by
  rw [Service.onLine]
  split
  · exact h.quit heof (fun hb ha => (hbroken hb ha).elim) nofun
  · next hne =>
    split
    · exact h.quit heof (fun hb ha => (hbroken hb ha).elim) fun _ => by omega
    · rw [hline.resolve_left hne]
      exact h.quit heof (fun hb ha => (hbroken hb ha).elim) nofun

theorem Heard.onLine {data : List UInt8} (h : Heard S c k)
    (htold : Told S c k) (hclient : k.client = .reading)
    (hr : k.down.reader.readline streamLimit = (.line data, r)) :
    Heard S c (S.onLine c data { k with down := { k.down with reader := r } }) := by
  obtain ⟨rest, hsent, hstream⟩ := h.stream (by rw [hclient]; rfl)
  rcases hstream with hholds | ⟨hbroken, hreader⟩
  · have hreads := hholds.reads streamLimit
    rw [hr] at hreads
    cases hreads with
    | line text texts' buffer first rest' fits =>
      cases rest with
      | nil => cases first
      | cons m rest =>
        obtain ⟨rfl, rfl⟩ := List.cons.inj first
        obtain ⟨b, hb⟩ := htold.texts m (by simp [hsent])
        rw [Codec.text_eq hb] at fits ⊢
        refine h.message htold (c.loads_line hb) (by simp [frame]) (fun hlong => ?_) hsent rfl
          (.inl ⟨fun t ht => hholds.plain t (List.mem_cons_of_mem _ ht), rest', hholds.fed_le⟩)
        rw [Codec.text_eq hb]
        rw [frame, List.length_append, List.length_singleton] at hlong
        exact ⟨by omega, fits⟩
    | last eof fits inside =>
      by_cases hnil : k.down.reader.buffer = []
      · refine h.noMessage (.inl hnil) fits rfl fun hb ha => ?_
        -- Everything has come and was handled, so the last message was handled as well.
        obtain ⟨hserver, hfed⟩ := h.eof hb eof
        have hbuffer := hholds.buffer hfed
        have hrest : rest = [] := by
          cases rest with
          | nil => rfl
          | cons m rest => simp [hnil] at hbuffer
        rcases htold.closed hserver with haborted | ⟨m, hm, hfinal⟩
        · rw [haborted] at ha
          cases ha
        · rw [hsent, hrest, List.append_nil] at hm
          exact hfinal (h.handled m hm)
      · obtain ⟨text, texts', first, hpart⟩ := inside.resolve_left hnil
        have hbroken : k.broken = true := by
          by_contra hb
          obtain ⟨-, hfed⟩ := h.eof (Bool.eq_false_iff.mpr hb) eof
          have hbuffer := hholds.buffer hfed
          have hlength := hpart.length_le
          rw [hbuffer, first, frames_cons, List.length_append, List.length_cons] at hlength
          omega
        cases rest with
        | nil => cases first
        | cons m rest =>
          obtain ⟨rfl, -⟩ := List.cons.inj first
          obtain ⟨b, hb⟩ := htold.texts m (by simp [hsent])
          rw [Codec.text_eq hb] at hpart
          by_cases heq : k.down.reader.buffer = b
          · refine h.message htold (heq ▸ c.loads_text hb) hnil (fun hlong => ?_) hsent rfl
              (.inr ⟨hbroken, by rw [eof]⟩)
            rw [Codec.text_eq hb, ← heq]
            exact ⟨Nat.le_of_lt hlong, fits⟩
          · exact h.noMessage (.inr (c.loads_part hb hpart heq)) fits rfl fun hb => by
              simp [hbroken] at hb
  · rw [hreader] at hr
    obtain ⟨hdata, rfl⟩ := Prod.mk.inj hr
    obtain rfl := Readline.line.inj hdata
    exact h.noMessage (.inl rfl) (Nat.zero_le _) (by rw [hreader]) fun hb => by simp [hbroken] at hb

theorem Heard.overrun (h : Heard S c k) (hclient : k.client = .reading)
    (hr : k.down.reader.readline streamLimit = (.overrun, r)) :
    Heard S c (Service.quit .overrun { k with down := { k.down with reader := r } }) := by
  obtain ⟨rest, hsent, hstream⟩ := h.stream (by rw [hclient]; rfl)
  rcases hstream with hholds | ⟨hbroken, hreader⟩
  · have hreads := hholds.reads streamLimit
    rw [hr] at hreads
    cases hreads with
    | overrun buffer text texts' first long =>
      cases rest with
      | nil => cases first
      | cons m rest =>
        obtain ⟨rfl, -⟩ := List.cons.inj first
        exact h.quit rfl (fun _ _ => ⟨m, by simp [hsent], long⟩) nofun
  · rw [hreader] at hr
    cases hr

theorem Heard.client (h : Heard S c k) (htold : Told S c k)
    (step : S.ClientStep c request k k') : Heard S c k' := by
  have live : ∀ client up server, client.outcome = none → k.client.outcome = none →
      (k.server = .closed → server = .closed) → Heard S c { k with client, up, server } :=
    fun _ _ _ hclient hlive hserver => ⟨fun _ => h.stream hlive, h.order, h.handled,
      fun hb hr => ⟨hserver (h.eof hb hr).1, (h.eof hb hr).2⟩,
      fun _ hp => (by rw [hclient] at hp; cases hp), fun _ he => (by rw [hclient] at he; cases he),
      fun he => (by rw [hclient] at he; cases he)⟩
  cases step with
  | forbidden | unavailable =>
    refine ⟨nofun, h.order, h.handled, h.eof, nofun, fun e he _ _ => ?_, nofun⟩
    obtain rfl := Except.error.inj (Option.some.inj he)
    trivial
  | connect at_ =>
    refine live _ _ _ rfl (by rw [at_]; rfl) fun hs => ?_
    rw [htold.absent at_] at hs
    cases hs
  | write at_ => exact live _ _ _ rfl (by rw [at_]; rfl) id
  | handled m at_ => exact live _ _ _ rfl (by rw [at_]; rfl) id
  | line at_ data r hr => exact h.onLine htold at_ hr
  | overrun at_ r hr => exact h.overrun at_ hr
  | unencodable | requestTooLarge | timeout | handler | cancelled =>
    exact h.quit rfl (fun _ _ => trivial) nofun
  | os at_ =>
    exact ⟨nofun, h.order, h.handled, nofun, nofun, fun e he hb => (by cases hb), nofun⟩
  | closed r at_ =>
    have houtcome : k.client.outcome = some r := by rw [at_]; rfl
    exact ⟨nofun, h.order, h.handled, h.eof, fun p hp => h.ok p (houtcome.trans hp),
      fun e he => h.error e (houtcome.trans he), fun he => h.short (houtcome.trans he)⟩
  | unclosed r at_ =>
    exact ⟨nofun, h.order, h.handled, nofun, nofun, fun e he hb => (by cases hb), nofun⟩

theorem Heard.emit {m : Fields} {text : List UInt8} (server : Server) (h : Heard S c k)
    (htext : c.dumps m = some text) (hopen : k.server ≠ .closed) :
    Heard S c { Service.emit m text k with server } where
  stream hlive := by
    obtain ⟨rest, hsent, hstream⟩ := h.stream hlive
    refine ⟨rest ++ [m], ?_, hstream.imp_left fun hholds => ?_⟩
    · show k.sent ++ [m] = _
      rw [hsent, List.append_assoc]
      rfl
    · rw [List.map_append, List.map_singleton, Codec.text_eq htext]
      exact hholds.write (c.single htext)
  order := h.order.trans (List.prefix_append _ _)
  handled := h.handled
  eof hb hr := absurd (h.eof hb hr).1 hopen
  ok p hp := by
    obtain ⟨hfinished, rest, hsent⟩ := h.ok p hp
    refine ⟨hfinished, rest ++ [m], ?_⟩
    show k.sent ++ [m] = _
    rw [hsent, List.append_assoc, List.cons_append]
    rfl
  error e he hb ha := (h.error e he hb ha).mono rfl
  short := h.short

theorem Heard.server (h : Heard S c k) (htold : Told S c k) (step : S.ServerStep c k k') :
    Heard S c k' := by
  -- The steps in which the server writes nothing and does not close its end.
  have silent : ∀ up server received finished, k.server ≠ .closed →
      (k.finished ≠ none → finished = k.finished) →
      Heard S c { k with up, server, received, finished } :=
    fun _ _ _ _ hopen hfinished => ⟨h.stream, h.order, h.handled,
      fun hb hr => absurd (h.eof hb hr).1 hopen, fun p hp => by
        obtain ⟨hf, hsent⟩ := h.ok p hp
        exact ⟨(hfinished (hf ▸ nofun)).trans hf, hsent⟩, h.error, h.short⟩
  cases step with
  | line at_ data r hr =>
    rw [Service.onRequest]
    split
    · exact silent _ _ k.received k.finished (at_ ▸ nofun) fun _ => rfl
    · split
      · exact silent _ _ _ k.finished (at_ ▸ nofun) fun _ => rfl
      · exact silent _ _ k.received k.finished (at_ ▸ nofun) fun _ => rfl
  | overrun at_ | timeout at_ => exact silent _ _ k.received k.finished (at_ ▸ nofun) fun _ => rfl
  | retry p at_ => exact silent _ _ k.received k.finished (at_ ▸ nofun) fun _ => rfl
  | finish request at_ r =>
    exact silent _ _ k.received _ (at_ ▸ nofun) fun hne => absurd (htold.working request at_).2 hne
  | send r at_ m text hm htext => exact h.emit k.server htext (at_ ▸ nofun)
  | reply r at_ text htext => exact h.emit _ htext (at_ ▸ nofun)
  | undrained p at_ hretries text htext => exact h.emit _ htext (at_ ▸ nofun)
  | abort at_ =>
    exact ⟨h.stream, h.order, h.handled, fun hb hr => absurd (h.eof hb hr).1 at_.2, h.ok,
      fun _ _ _ ha => (by cases ha), h.short⟩

theorem Heard.network (h : Heard S c k) (step : NetworkStep k k') : Heard S c k' := by
  have broken : ∀ up down, (∀ texts, k.down.Holds texts → Pipe.Holds down texts) →
      (k.down.reader = ⟨[], true⟩ → down.reader = ⟨[], true⟩) →
      Heard S c { k with up, down, broken := true } :=
    fun up down hholds hreader => ⟨fun hlive => (h.stream hlive).imp fun rest hrest =>
        hrest.imp_right fun hstream => hstream.elim (fun hdown => .inl (hholds _ hdown))
          fun hdrained => .inr ⟨rfl, hreader hdrained.2⟩,
      h.order, h.handled, nofun, h.ok, fun _ _ hb => (by cases hb), h.short⟩
  cases step with
  | feedUp | endUp => exact ⟨h.stream, h.order, h.handled, h.eof, h.ok, h.error, h.short⟩
  | feedDown n open_ hn =>
    refine ⟨fun hlive => ?_, h.order, h.handled, fun hb hr => ?_, h.ok, h.error, h.short⟩
    · obtain ⟨rest, hsent, hstream⟩ := h.stream hlive
      refine ⟨rest, hsent, .inl (hstream.elim (·.feed hn) fun hdrained => ?_)⟩
      rw [hdrained.2] at open_
      cases open_
    · have hr' : k.down.reader.eof = true := hr
      rw [open_] at hr'
      cases hr'
  | endDown at_ hall =>
    refine ⟨fun hlive => ?_, h.order, h.handled, fun _ _ => ⟨at_, hall⟩, h.ok, h.error, h.short⟩
    obtain ⟨rest, hsent, hstream⟩ := h.stream hlive
    refine ⟨rest, hsent, hstream.imp Pipe.Holds.finish fun hdrained => ⟨hdrained.1, ?_⟩⟩
    show StreamReader.mk k.down.reader.buffer true = _
    rw [hdrained.2]
  | breakUp => exact broken _ _ (fun _ => id) id
  | breakDown =>
    refine broken _ _ (fun _ => Pipe.Holds.finish) fun hreader => ?_
    show StreamReader.mk k.down.reader.buffer true = _
    rw [hreader]

/-! ### Runs -/

structure Inv (S : Service) (c : Codec) (request : Fields) (k : Connection) : Prop where
  asked : Asked c request k
  told : Told S c k
  heard : Heard S c k

theorem inv_start : Inv S c request .start where
  asked := ⟨fun _ => Pipe.holds_empty, fun _ => .inl Pipe.holds_empty, nofun⟩
  told := ⟨by simp [Connection.start], by simp [Connection.start], fun _ => rfl, nofun, nofun,
    fun h => absurd rfl h, nofun, fun _ => rfl⟩
  heard := ⟨fun _ => ⟨[], rfl, .inl Pipe.holds_empty⟩, List.prefix_refl _,
    by simp [Connection.start], nofun, nofun, nofun, nofun⟩

theorem Inv.step (h : Inv S c request k) (step : Step S c request k k') : Inv S c request k' := by
  cases step with
  | client step => exact ⟨h.asked.client step, h.told.client step, h.heard.client h.told step⟩
  | server step => exact ⟨h.asked.server step, h.told.server step, h.heard.server h.told step⟩
  | network step => exact ⟨h.asked.network step, h.told.network step, h.heard.network step⟩

theorem inv_of_reachable (reach : Reachable S c request k) : Inv S c request k := by
  induction reach with
  | refl => exact inv_start
  | tail _ step ih => exact ih.step step

/-- A payload is the reply to the request.  Whatever pieces the bytes come in and whatever fails, a
request that comes back with a payload was read by the server as it was sent, the work on it ended with
this payload, and every message that the server had sent before was handled, in the order in which
they were sent and each of them once; and no other request is ever worked on. -/
theorem payload_of_request (S : Service) (c : Codec) (request : Fields) (k : Connection)
    (reach : Reachable S c request k) :
    (∀ p, k.client = .ended (.ok p) → k.received = some request ∧ k.finished = some (.ok p) ∧
      ∃ rest, k.sent = k.handled ++ S.final (.ok p) :: rest) ∧
    k.handled <+: k.sent ∧ (∀ m ∈ k.handled, S.sends m = true) ∧
    ∀ m, k.received = some m → m = request := by
  have inv := inv_of_reachable reach
  refine ⟨fun p hp => ?_, inv.heard.order, fun m hm => ?_,
    fun m hm => (inv.asked.received m hm).1⟩
  · obtain ⟨hfinished, hsent⟩ := inv.heard.ok p (by rw [hp]; rfl)
    obtain ⟨m, hm⟩ := Option.ne_none_iff_exists'.mp (inv.told.finished (hfinished ▸ nofun))
    exact ⟨hm.trans (congrArg some (inv.asked.received m hm).1), hfinished, hsent⟩
  · have hhandle := inv.heard.handled m hm
    have hmem := inv.heard.order.subset hm
    refine (inv.told.kinds m hmem).resolve_right ?_
    rintro ⟨r, rfl, hreply⟩
    cases r with
    | ok p =>
      rw [S.verdict_ok p (hreply p rfl).2] at hhandle
      cases hhandle
    | error code =>
      obtain ⟨code', hcode⟩ := S.verdict_error code
      rw [hcode] at hhandle
      cases hhandle

def sampleText : Nat → List UInt8
  | 0 => "\x7b\"action\":\"storage.verify\"\x7d".toList.map fun c => UInt8.ofNat c.toNat
  | 1 => "\x7b\"type\":\"stage\"\x7d".toList.map fun c => UInt8.ofNat c.toNat
  | 2 => "\x7b\"type\":\"result\",\"payload\":\x7b\x7d\x7d".toList.map fun c =>
      UInt8.ofNat c.toNat
  | _ => "\x7b\"type\":\"error\",\"code\":\"BROKER_FAILED\"\x7d".toList.map fun c =>
      UInt8.ofNat c.toNat

def sampleMessage : Nat → Fields
  | 0 => [("action", .str "storage.verify")]
  | 1 => [("type", .str "stage")]
  | 2 => [("type", .str "result"), ("payload", .obj [])]
  | _ => [("type", .str "error"), ("code", .str "BROKER_FAILED")]

def sampleIndex : Fields → Option Nat
  | [("action", .str "storage.verify")] => some 0
  | [("type", .str "stage")] => some 1
  | [("type", .str "result"), ("payload", .obj [])] => some 2
  | [("type", .str "error"), ("code", .str "BROKER_FAILED")] => some 3
  | _ => none

def sampleLoads (line : List UInt8) : Option Json :=
  ([0, 1, 2, 3].find? fun n => line = sampleText n || line = frame (sampleText n)).map fun n =>
    .obj (sampleMessage n)

theorem sampleIndex_eq {m : Fields} {n : Nat} (h : sampleIndex m = some n) :
    n ∈ [0, 1, 2, 3] ∧ m = sampleMessage n := by
  unfold sampleIndex at h
  split at h
  all_goals first | (obtain rfl := Option.some.inj h; exact ⟨by simp, rfl⟩) | cases h

theorem sample_dumps {m : Fields} {b : List UInt8} (h : (sampleIndex m).map sampleText = some b) :
    ∃ n ∈ [0, 1, 2, 3], m = sampleMessage n ∧ b = sampleText n := by
  obtain ⟨n, hn, rfl⟩ := Option.map_eq_some_iff.mp h
  obtain ⟨hmem, hm⟩ := sampleIndex_eq hn
  exact ⟨n, hmem, hm, rfl⟩

def sampleCodec : Codec where
  dumps m := (sampleIndex m).map sampleText
  loads := sampleLoads
  single h := by
    obtain ⟨n, hn, -, rfl⟩ := sample_dumps h
    have plain : ∀ n ∈ [0, 1, 2, 3], newline ∉ sampleText n := by decide
    exact plain n hn
  loads_line h := by
    obtain ⟨n, hn, rfl, rfl⟩ := sample_dumps h
    simp only [List.mem_cons, List.not_mem_nil, or_false] at hn
    rcases hn with rfl | rfl | rfl | rfl <;> rfl
  loads_text h := by
    obtain ⟨n, hn, rfl, rfl⟩ := sample_dumps h
    simp only [List.mem_cons, List.not_mem_nil, or_false] at hn
    rcases hn with rfl | rfl | rfl | rfl <;> rfl
  loads_part h hpart hne := by
    obtain ⟨n, hn, -, rfl⟩ := sample_dumps h
    have parts : ∀ n ∈ [0, 1, 2, 3], ∀ l ∈ (sampleText n).inits, l ≠ sampleText n →
        (sampleLoads l).isNone = true := by decide
    exact Option.isNone_iff_eq_none.mp (parts n hn _ ((List.mem_inits _ _).mpr hpart) hne)

theorem sample_reachable : ∃ k, Reachable storageExecutor sampleCodec (sampleMessage 0) k ∧
    k.client = .ended (.ok []) ∧ k.handled = [sampleMessage 1] := by
  have asked : Relation.ReflTransGen (Step storageExecutor sampleCodec (sampleMessage 0))
      .start _ :=
    ((((Relation.ReflTransGen.refl.tail (.client (.connect rfl rfl))).tail
      (.client (.write rfl _ rfl (by decide)))).tail (.network (.feedUp 5 rfl (by decide)))).tail
      (.network (.feedUp 23 rfl (by decide)))).tail (.server (.line rfl _ _ rfl))
  have answered := ((asked.tail (.server (.send _ rfl (sampleMessage 1) _ rfl rfl rfl))).tail
    (.server (.finish _ rfl (.ok []) fun _ _ => rfl))).tail (.server (.reply _ rfl _ rfl rfl))
  have read := (((answered.tail (.network (.feedDown 20 rfl (by decide)))).tail
    (.client (.line rfl _ _ rfl))).tail (.client (.handled _ rfl))).tail
    (.network (.feedDown 28 rfl (by decide)))
  exact ⟨_, (read.tail (.client (.line rfl _ _ rfl))).tail (.client (.closed _ rfl)), rfl, rfl⟩

theorem payload_of_request_sample : ∃ k : Connection, k.client = .ended (.ok []) ∧
    k.received = some (sampleMessage 0) ∧ k.finished = some (.ok []) ∧
    ∃ rest, k.sent = [sampleMessage 1] ++ sampleMessage 2 :: rest := by
  obtain ⟨k, reach, hclient, hhandled⟩ := sample_reachable
  obtain ⟨hreceived, hfinished, rest, hsent⟩ :=
    (payload_of_request storageExecutor sampleCodec (sampleMessage 0) k reach).1 [] hclient
  exact ⟨k, hclient, hreceived, hfinished, rest, hhandled ▸ hsent⟩

/-- A request that fails has a reason.  Where the connection does not break and the server does not give
up, no request ends for want of a reply or over one that cannot be read, and an error that the client
reports was sent by the server; a response is too long for the reader before it can be too large for a
client whose own limit is higher; and no request longer than the limit of the reader is ever worked
on, however long a request the client and the server allow. -/
theorem failure_of_request (S : Service) (c : Codec) (request : Fields) (k : Connection)
    (reach : Reachable S c request k) :
    (∀ e, k.client = .ended (.error e) → k.broken = false → k.aborted = false →
      Explained S c k e) ∧
    (streamLimit < S.maxResponse → k.client ≠ .ended (.error .responseTooLarge)) ∧
    ∀ m, k.received = some m → ∃ b, c.dumps m = some b ∧ b.length ≤ streamLimit := by
  have inv := inv_of_reachable reach
  refine ⟨fun e he => inv.heard.error e (by rw [he]; rfl), fun hlimit he => ?_, fun m hm => ?_⟩
  · have := inv.heard.short (by rw [he]; rfl)
    omega
  · obtain ⟨rfl, hb⟩ := inv.asked.received m hm
    exact hb

theorem sampleLate_reachable : ∃ k, Reachable storageExecutor sampleCodec (sampleMessage 0) k ∧
    k.client = .ended (.error (.reported (some "BROKER_FAILED"))) ∧ k.broken = false ∧
    k.aborted = false := by
  have answered : Relation.ReflTransGen (Step storageExecutor sampleCodec (sampleMessage 0))
      .start _ :=
    (((Relation.ReflTransGen.refl.tail (.client (.connect rfl rfl))).tail
      (.client (.write rfl _ rfl (by decide)))).tail (.server (.timeout rfl))).tail
      (.server (.reply _ rfl _ rfl rfl))
  have read := answered.tail (.network (.feedDown 40 rfl (by decide)))
  exact ⟨_, (read.tail (.client (.line rfl _ _ rfl))).tail (.client (.closed _ rfl)), rfl, rfl, rfl⟩

theorem failure_of_request_late : ∃ k : Connection,
    k.client = .ended (.error (.reported (some "BROKER_FAILED"))) ∧
    ∃ code', storageExecutor.final (.error code') ∈ k.sent := by
  obtain ⟨k, reach, hclient, hbroken, haborted⟩ := sampleLate_reachable
  obtain ⟨code', hsent, -⟩ :=
    (failure_of_request storageExecutor sampleCodec (sampleMessage 0) k reach).1 _ hclient hbroken
      haborted
  exact ⟨k, hclient, code', hsent⟩

end Ares.Sockets
