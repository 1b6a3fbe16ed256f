/-
  Accessors.Proofs.CommandLine.Serve — the address that the server is started on.

  An address stands behind the kind of its transport (`ofText_tcp`). It is cut at its first
  colon, and its port ends at the next one (`ofAddress_cut`). So a host and a port with a
  colon between them are what the server is started on if and only if the host has no colon
  and the port is not too long to be read.
  - `asks_joined`, `asks_apart`: arguments that ask for an address;
  - `serve_address`: what a run with such arguments comes to;
  - `serve_colons`: an address of a host with colons in it, whose port is not found.
-/
import Accessors.CommandLine.Program
import Accessors.Proofs.Number.IntText
import Accessors.Proofs.Text.Pieces

namespace Accessors

/-! ## Addresses -/

namespace Transport

/-- The host ends at the first colon, and the port at the next. -/
theorem ofAddress_cut {host : Text} (h : ':' ∉ host) (rest : Text) :
    ofAddress (host ++ ':' :: rest) = (IntText.readText (rest.takeWhile (· ≠ ':'))).map (tcp host) := by
  obtain ⟨port, more, hs⟩ := List.exists_cons_of_ne_nil (Text.splitOn_ne_nil ':' rest)
  have hport : port = rest.takeWhile (· ≠ ':') := by
    have hhead := Text.head?_splitOn ':' rest
    rw [hs] at hhead
    exact Option.some.inj hhead
  rw [ofAddress, Text.splitOn_append_sep h, hs, ← hport]

/-- What stands behind the kind is the address. -/
theorem ofText_tcp (address : Text) :
    ofText ("tcp:".toList ++ address) = (ofAddress address).mapError .wholeNumber := by
  have hother : "tcp:".toList ++ address ≠ "stdio".toList := fun e => by cases e
  have hafter : Text.after? "tcp:".toList ("tcp:".toList ++ address) = some address := rfl
  unfold ofText
  rw [if_neg hother, hafter]

end Transport

namespace CommandLine

/-! ## Arguments -/

/-- The arguments ask for the server at an address, with a level for the log. -/
def Asks (args : List Text) (address : Text) : Prop :=
  ∃ level format, Options.ofArguments args = .ok ⟨some level, format, .serve (some address)⟩

/-- Where all words go into the slot, the first one takes everything behind it along. -/
theorem take_rest {s : Taken} (h : s.words = none) (w : Text) (ps : List (Text × Piece)) :
    take .rest none s ((w, .word w) :: ps) = .ok (s.fill (w :: ps.map (·.1))) := by
  obtain ⟨values, words, leftOver⟩ := s
  obtain rfl : words = none := h
  rw [take]
  · split <;> rfl
  · rfl

theorem parse_of_sort {part : Part} {args : List Text} {sorted : Sorted} {s : Taken}
    (hsort : part.grammar.sort args = .ok sorted)
    (htake : take part.grammar.slot sorted.behind ⟨[], none, []⟩ sorted.pieces = .ok s) : part.parse args = .ok s := by
  have hparse : part.grammar.parse args = .ok s := by
    rw [Grammar.parse, hsort]
    exact htake
  rw [Part.parse, hparse]

/-- What is behind the command goes to the server. -/
theorem ofArguments_server {args : List Text} {pieces : List (Text × Piece)} {s : Taken}
    (hsort : Part.program.grammar.sort args = .ok ⟨pieces, none⟩) (hpieces : pieces.map (·.1) = args)
    (hserver : Part.server.parse args = .ok s) (hleft : s.leftOver = []) :
    Options.ofArguments ("lsp".toList :: args) =
      .ok ⟨some Log.Setup.defaultLevel, Log.Setup.defaultFormat, .serve (s.value? tcpFlag)⟩ := by
  have hwords : Part.program.grammar.sort ("lsp".toList :: args) =
      .ok ⟨("lsp".toList, .word "lsp".toList) :: pieces, none⟩ := by
    rw [Grammar.sort, if_neg (by decide), hsort]
    rfl
  have htake : take .rest none ⟨[], none, []⟩ (("lsp".toList, .word "lsp".toList) :: pieces) =
      .ok ⟨[], some ("lsp".toList :: args), []⟩ := by
    rw [take_rest rfl, hpieces]
    rfl
  have hprogram := parse_of_sort hwords htake
  have hrequest : requestOf .server args = .ok (.serve (s.value? tcpFlag), []) := by
    rw [requestOf, hserver, ← hleft]
    rfl
  rw [Options.ofArguments, hprogram]
  show (requestOf .server args >>= _) = _
  rw [hrequest]
  rfl

section Asking

variable {address : Text}

/-- The flag takes every value but a double dash, which is none to it. -/
theorem record_tcp (h : address ≠ doubleDash) : (Taken.record ⟨[], none, []⟩ tcpFlag (fun _ => none) address >>=
    fun s => take .none none s []) = .ok ⟨[("--tcp".toList, some address)], none, []⟩ := by
  rw [Taken.record, if_neg h]
  rfl

theorem asks_joined (h : address ≠ doubleDash) : Asks ["lsp".toList, "--tcp=".toList ++ address] address := by
  have hdash : "--tcp=".toList ++ address ≠ doubleDash := fun e => by cases e
  have hprogram : Part.program.grammar.sort ["--tcp=".toList ++ address] =
      .ok ⟨[("--tcp=".toList ++ address, plainPiece ("--tcp=".toList ++ address))], none⟩ := by
    rw [Grammar.sort, if_neg hdash]
    rfl
  have hserver : Part.server.grammar.sort ["--tcp=".toList ++ address] =
      .ok ⟨[("--tcp=".toList ++ address, .flag tcpFlag (some ⟨address, false⟩))], none⟩ := by
    rw [Grammar.sort, if_neg hdash]
    rfl
  exact ⟨_, _, ofArguments_server hprogram rfl (parse_of_sort hserver (record_tcp h)) rfl⟩

theorem asks_apart (h : address.head? ≠ some '-') : Asks ["lsp".toList, "--tcp".toList, address] address := by
  have hdash : address ≠ doubleDash := fun e => h (e ▸ rfl)
  have hword : ∀ g : Grammar, g.sort [address] = .ok ⟨[(address, .word address)], none⟩ := by
    intro g
    have hpiece : g.piece address = .ok (.word address) := by
      cases address with
      | nil => rfl
      | cons c r =>
        rw [Grammar.piece]
        exact fun _ _ e => h (congrArg List.head? e)
    rw [Grammar.sort, if_neg hdash, hpiece]
    rfl
  have hprogram : Part.program.grammar.sort ["--tcp".toList, address] =
      .ok ⟨[("--tcp".toList, .unknown "--tcp".toList), (address, .word address)], none⟩ := by
    rw [Grammar.sort, if_neg (by decide), hword]
    rfl
  have hserver : Part.server.grammar.sort ["--tcp".toList, address] =
      .ok ⟨[("--tcp".toList, .flag tcpFlag none), (address, .word address)], none⟩ := by
    rw [Grammar.sort, if_neg (by decide), hword]
    rfl
  exact ⟨_, _, ofArguments_server hprogram rfl (parse_of_sort hserver (record_tcp hdash)) rfl⟩

end Asking

/-! ## Runs -/

/-- The run of a server on a host, with what is read of its port. -/
def Run.servingAt (host : Text) : Except IntText.Fault Int → Run
  | .ok port => .serving (.tcp host port)
  | .error f => ⟨[], .stopped (.wholeNumber f)⟩

/-- A server that starts on a host has been asked for that host. -/
theorem eq_of_servingAt {first host : Text} {read : Except IntText.Fault Int} {port : Int}
    (h : Run.servingAt first read = .serving (.tcp host port)) : first = host := by
  cases read with
  | ok n => exact (Transport.tcp.inj (Ending.serving.inj (congrArg Run.ending h))).1
  | error f => cases h

section Serving

variable {args : List Text} {bounds : Value.Bounds} {opening : Opening} {folder : Text}

theorem run_cut {host rest : Text} (h : Asks args (host ++ ':' :: rest)) (hhost : ':' ∉ host) :
    (run bounds opening folder args).2 = .servingAt host (IntText.readText (rest.takeWhile (· ≠ ':'))) := by
  obtain ⟨level, format, hargs⟩ := h
  rw [run, hargs]
  show Run.serve (some (host ++ ':' :: rest)) = _
  have htext : transportText (some (host ++ ':' :: rest)) = "tcp:".toList ++ (host ++ ':' :: rest) :=
    if_neg (by simp)
  rw [Run.serve, htext, Transport.ofText_tcp, Transport.ofAddress_cut hhost]
  cases IntText.readText (rest.takeWhile (· ≠ ':')) with
  | ok port => rfl
  | error f => rfl

/-- A host without a colon is kept, and the port is read. -/
theorem run_whole {host : Text} {port : Nat} (h : Asks args (host ++ ':' :: Text.ofNat port)) (hhost : ':' ∉ host) :
    (run bounds opening folder args).2 = .servingAt host (IntText.readText (Text.ofNat port)) := by
  have hdigits : (Text.ofNat port).takeWhile (· ≠ ':') = Text.ofNat port := by
    rw [List.takeWhile_eq_self_iff]
    intro c hc
    have hdigit : c.isDigit = true := Nat.isDigit_of_mem_toDigits (by decide) (by decide) hc
    have hne : c ≠ ':' := by
      rintro rfl
      exact absurd hdigit (by decide)
    simpa using hne
  rw [run_cut h hhost, hdigits]

/-- Of a host with a colon in it only what is before is kept. -/
theorem run_broken {first rest digits : Text} (h : Asks args (first ++ ':' :: rest ++ ':' :: digits))
    (hfirst : ':' ∉ first) :
    (run bounds opening folder args).2 = .servingAt first (IntText.readText (rest.takeWhile (· ≠ ':'))) := by
  have hcut : (rest ++ ':' :: digits).takeWhile (· ≠ ':') = rest.takeWhile (· ≠ ':') := by
    rw [List.takeWhile_append]
    split
    · rename_i hlength
      rw [List.takeWhile_cons_of_neg (by simp), List.append_nil]
      exact ((List.takeWhile_prefix _).eq_of_length hlength).symm
    · rfl
  rw [List.append_assoc, List.cons_append] at h
  rw [run_cut h hfirst, hcut]

end Serving

/-- The server is asked for an address by the flag and the address in one argument, or in two
    unless it starts with a dash. Whatever asks for a host and a port with a colon between
    them, it is started on just these if and only if there is no colon in the host and the
    port is not too long to be read. Of a host with a colon it gets what is before the
    first one, and for its port what is from there to the next. -/
theorem serve_address (host : Text) (port : Nat) :
    let address := host ++ ':' :: Text.ofNat port
    Asks ["lsp".toList, "--tcp=".toList ++ address] address ∧
    (host.head? ≠ some '-' → Asks ["lsp".toList, "--tcp".toList, address] address) ∧
    ∀ bounds opening folder args, Asks args address →
      ((run bounds opening folder args).2 = .serving (.tcp host port) ↔
        ':' ∉ host ∧ (Text.ofNat port).length ≤ IntText.maxDigits) ∧
      (':' ∉ host → IntText.maxDigits < (Text.ofNat port).length →
        (run bounds opening folder args).2 = .servingAt host (.error (.tooManyDigits (Text.ofNat port).length))) ∧
      ∀ first rest, host = first ++ ':' :: rest → ':' ∉ first →
        (run bounds opening folder args).2 = .servingAt first (IntText.readText (rest.takeWhile (· ≠ ':'))) := by
  intro address
  have hmem : ':' ∈ address := List.mem_append_right _ List.mem_cons_self
  refine ⟨asks_joined fun e => ?_, fun hhead => asks_apart ?_, fun bounds opening folder args hasks => ⟨?_, ?_, ?_⟩⟩
  · rw [e] at hmem
    exact absurd hmem (by decide)
  · cases host with
    | nil => exact fun e => absurd (Option.some.inj e) (by decide)
    | cons c r => exact hhead
  · by_cases hhost : ':' ∈ host
    · obtain ⟨first, rest, rfl, hfirst⟩ := List.eq_append_cons_of_mem hhost
      refine iff_of_false (fun hrun => ?_) fun h => h.1 hhost
      rw [run_broken hasks hfirst] at hrun
      have hlength := congrArg List.length (eq_of_servingAt hrun)
      simp only [List.length_append, List.length_cons] at hlength
      omega
    · rw [run_whole hasks hhost, IntText.readText_ofNat, and_iff_right hhost]
      split
      · rename_i hport
        exact iff_of_false (fun hrun => by cases hrun) (Nat.not_le.2 hport)
      · rename_i hport
        exact iff_of_true rfl (Nat.not_lt.1 hport)
  · intro hhost hport
    rw [run_whole hasks hhost, IntText.readText_ofNat, if_pos hport]
  · rintro first rest rfl hfirst
    exact run_broken hasks hfirst

theorem serve_address_sample :
    (run ⟨1, 0⟩ (fun _ => .ok []) [] ["lsp".toList, "--tcp".toList, "localhost:2087".toList]).2 =
      .serving (.tcp "localhost".toList 2087) := by
  obtain ⟨-, hasks, hserved⟩ := serve_address "localhost".toList 2087
  exact (hserved ⟨1, 0⟩ (fun _ => .ok []) [] _ (hasks (by decide))).1.2 ⟨by decide, by decide⟩

/-- The port of a host that starts with colons is read from between them. -/
theorem serve_colons :
    let r := (run ⟨1, 0⟩ (fun _ => .ok []) [] ["lsp".toList, "--tcp".toList, "::1:2087".toList]).2
    r ≠ .serving (.tcp "::1".toList 2087) ∧ r = .servingAt [] (.error (.notInteger [])) := by decide

end CommandLine

end Accessors
