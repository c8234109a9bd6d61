import YubiWallet.CardCommands
import YubiWallet.Cli.Commands
import YubiWallet.Host.FrontEnds
import YubiWallet.Host.Listing
import YubiWallet.Lib.Output

/-! The command line and the host show the same accounts of a card whose contents do not
change. -/
namespace YubiWallet.Cli
open Interaction Outcome
open Host (Entry)

/-- The commands that read public keys. -/
def ReadsKeys : CardCommand → Prop
  | .select _ | .readPublicKey _ | .readCertificate _ => True
  | _ => False

/-- What a subcommand may do: read public keys and print. A line is read only for the key
that was left out. -/
def Permitted (command : Command) : Op → Prop
  | .connect | .print _ => True
  | .transmit bytes _ => ∃ cmd : CardCommand, bytes = cmd.encode ∧ ReadsKeys cmd
  | .readLine => command = .sshToSolana none
  | _ => False

theorem readsKeys_of_ins {cmd : CardCommand}
    (h : cmd.encode.getD 1 0 ∈ [Apdu.insSelect, Apdu.insGetPublicKey, Apdu.insGetData]) :
    ReadsKeys cmd := by
  cases cmd with
  | select applet => trivial
  | readPublicKey slot => trivial
  | readCertificate slot => trivial
  | verifyPw1 slot pin => exact absurd h (by simp [CardCommand.encode, Apdu.shortCommand]; decide)
  | verifyPiv padded => exact absurd h (by simp [CardCommand.encode, Apdu.shortCommand]; decide)
  | signOpenpgp slot message =>
    by_cases hsig : slot.val = OpenpgpSlot.sig
    · exact absurd h (by simp [CardCommand.encode, Apdu.shortCommand, hsig]; decide)
    · exact absurd h (by simp [CardCommand.encode, Apdu.shortCommand, hsig]; decide)
  | signPiv slot message =>
    exact absurd h (by simp [CardCommand.encode, Piv.generalAuthenticateCommand,
      Apdu.buildApduExt]; decide)

theorem card_permitted (command : Command) {α : Type} {p : Prog α}
    (hreads : Prog.Only ReadsCard p) (hspeaks : Prog.Only Speaks p) :
    Prog.Only (Permitted command) p := by
  refine (Prog.Always.and hreads hspeaks).mono fun _ _ ht e he => ?_
  have hread := ht.1 e he
  have hspeak := ht.2 e he
  cases hop : e.op with
  | connect => trivial
  | transmit bytes bufLen =>
    obtain ⟨cmd, rfl⟩ := hspeak bytes bufLen hop
    rw [hop] at hread
    exact ⟨cmd, rfl, readsKeys_of_ins hread⟩
  | _ =>
    rw [hop] at hread
    cases hread

theorem println_permitted (command : Command) (line : String) :
    Prog.Only (Permitted command) (println line).run := printLine_only (fun _ => trivial) _ line

theorem listSlot_permitted (command : Command) (C : Crates) (name : String) (slot : UInt8) :
    Prog.Only (Permitted command) (listSlot C name slot).run := by
  refine Action.only_bind (println_permitted _ _) fun _ => Action.only_bind (Action.only_lift
    (card_permitted _ (detectAccount_readsCard slot) (detectAccount_speaks slot))) fun r => ?_
  cases r with
  | ok found => exact Action.only_bind (orFail_only _) fun _ => println_permitted _ _
  | error e => exact println_permitted _ _

theorem listPivSlots_permitted (command : Command) (infos : List Piv.SlotInfo) (found : Nat) :
    Prog.Only (Permitted command) (listPivSlots infos found).run := by
  induction infos generalizing found with
  | nil => exact Prog.Only.pure _
  | cons info infos ih =>
    unfold listPivSlots
    cases info.ed25519Pubkey with
    | none => exact ih found
    | some pk => exact Action.only_bind (println_permitted _ _) fun _ => ih (found + 1)

theorem list_permitted (C : Crates) : Prog.Only (Permitted .list) (list C).run := by
  unfold list
  refine Action.only_bind (listSlot_permitted _ C _ _) fun _ => Action.only_bind
    (listSlot_permitted _ C _ _) fun _ => Action.only_bind (println_permitted _ _) fun _ =>
    Action.only_bind ?_ fun infos => Action.only_bind (listPivSlots_permitted _ infos 0)
    fun found => ?_
  · exact Action.only_mapErr (card_permitted _ listAccounts_readsCard listAccounts_speaks) _
  · split
    · exact println_permitted _ _
    · exact Prog.Only.pure _

theorem address_permitted (C : Crates) (args : AccountArgs) (env : Env) (h : Trace) :
    ∀ e ∈ (Prog.run env (address C args).run h).2, Permitted (.address args) e.op := by
  unfold address
  -- an opaque result of the parser, which the rules would otherwise evaluate
  generalize args.toAccount = parsed
  refine Prog.Always.run (Action.only_bind (orFail_only _) fun acc => Action.only_bind ?_ fun _ =>
    Action.only_bind (println_permitted _ _) fun _ => Action.only_bind (orFail_only _)
    fun _ => println_permitted _ _) env h
  exact Action.only_mapErr (card_permitted _ (getPubkey_readsCard acc) (getPubkey_speaks acc)) _

theorem sshToSolana_permitted (C : Crates) (sshKey : Option String) (env : Env) (h : Trace) :
    ∀ e ∈ (Prog.run env (sshToSolana C sshKey).run h).2, Permitted (.sshToSolana sshKey) e.op := by
  unfold sshToSolana
  generalize sshEd25519ToSolana C.base64Error = convert
  refine Prog.Always.run (Action.only_bind ?_ fun key => Action.only_bind (orFail_only _)
    fun _ => println_permitted _ _) env h
  cases sshKey with
  | some key => exact Prog.Only.pure _
  | none =>
    refine Action.only_bind (Action.only_lift (Prog.Only.perform rfl)) fun x => ?_
    cases x with
    | error e => exact Action.only_throw _
    | ok line =>
      simp only
      split
      · exact Action.only_throw _
      · exact Prog.Only.pure _

/-- Whatever is on the card and in the arguments, no subcommand asks for a PIN, and the card
hears nothing but the three commands that read public keys. -/
theorem run_permitted (C : Crates) (command : Command) (env : Env) (h : Trace) :
    ∀ e ∈ (Prog.run env (run C command).run h).2, Permitted command e.op := by
  unfold run
  cases command with
  | list => exact Prog.Always.run (list_permitted C) env h
  | address args => exact address_permitted C args env h
  | sshToSolana sshKey => exact sshToSolana_permitted C sshKey env h

theorem run_permitted_select :
    Permitted .list (.transmit (CardCommand.encode (.select .piv)) 512) :=
  run_permitted ⟨Host.hardhatCrates.keccak256, fun _ => ""⟩ .list Host.hardhatCard.env []
    ⟨.transmit (CardCommand.encode (.select .piv)) 512, Except.ok [0x90, 0x00]⟩
    (List.mem_of_getElem? (i := 12) (by rfl))

/-- The standard output takes every text. -/
def Writable (env : Env) : Prop := ∀ h text, env h (.print text) = Except.ok ()

/-- The action prints these lines and ends in `r`. -/
def Shows (env : Env) {α : Type} (p : CliM α) (lines : List String) (r : Except Stop α) : Prop :=
  Yields printed? env p.run (lines.map (· ++ "\n")) r

variable {env : Env}

namespace Shows
variable {α β : Type}

theorem println (hout : Writable env) (line : String) : Shows env (println line) [line] (.ok ()) :=
  Action.yields_bind (Action.yields_lift (Yields.perform fun h => hout h _)) (Yields.pure _)

/-- Reading the card prints nothing. -/
theorem card {p : CliM α} {r : Except Stop α} (hp : Prog.Only ReadsCard p.run)
    (hrun : ∀ h, (Prog.run env p.run h).1 = r) : Shows env p [] r :=
  Yields.of_only hp printed?_of_readsCard hrun

theorem orFail (r : Except String α) : Shows env (orFail r) [] (r.mapError .failed) :=
  Action.yields_ofExcept _

theorem bind {p : CliM α} {f : α → CliM β} {lines lines' : List String} {a : α}
    {r : Except Stop β} (hp : Shows env p lines (.ok a)) (hf : Shows env (f a) lines' r) :
    Shows env (p >>= f) (lines ++ lines') r := by
  unfold Shows
  rw [List.map_append]
  exact Action.yields_bind hp hf

theorem println_bind (hout : Writable env) (line : String) {f : Unit → CliM α}
    {lines : List String} {r : Except Stop α} (hf : Shows env (f ()) lines r) :
    Shows env (Cli.println line >>= f) (line :: lines) r :=
  (println hout line).bind hf

theorem silent_bind {p : CliM α} {f : α → CliM β} {lines : List String} {a : α}
    {r : Except Stop β} (hp : Shows env p [] (.ok a)) (hf : Shows env (f a) lines r) :
    Shows env (p >>= f) lines r := hp.bind hf

theorem bind_error {p : CliM α} {f : α → CliM β} {lines : List String} {e : Stop}
    (hp : Shows env p lines (.error e)) : Shows env (p >>= f) lines (.error e) :=
  Action.yields_bind_error hp

end Shows

def chain : Curve → String
  | .ed25519 => "Solana"
  | .secp256k1 => "Ethereum"

def accountLine (H : Host.Crates) (e : Entry) : String :=
  let text := s!"{chain e.1.curve}: {Host.address H e.1.curve e.2}"
  match e.1.applet with
  | .openPgp => s!"  {text}  ({Hex.encode e.2})"
  | .piv => s!"  slot {fmtHash04x e.1.slot}  {text}  ({Hex.encode e.2})"

/-- The command line with the host's hash function. -/
def cratesOf (H : Host.Crates) (base64Error : Bytes → String) : Crates := ⟨H.keccak256, base64Error⟩

theorem formatAddress_of_shape (H : Host.Crates) (base64Error : Bytes → String) {curve : Curve}
    {pk : Bytes} (h : StaticCard.Shape curve pk) :
    formatAddress (cratesOf H base64Error) curve pk =
      .ok s!"{chain curve}: {Host.address H curve pk}" := by
  have haddr := Host.address_of_shape H h
  cases curve with
  | ed25519 => rfl
  | secp256k1 =>
    obtain ⟨a, -, ha, haddr, -⟩ := haddr
    change Eth.addressFromPubkey (cratesOf H base64Error).keccak256 pk = .ok a at ha
    simp only [formatAddress, ha, haddr, chain]
    rfl

/-- What `list` finds in a slot of the OpenPGP applet. -/
def detected (card : StaticCard) (slot : UInt8) : Except Error (Curve × Bytes) :=
  card.session Openpgp.aid >>= fun _ => card.publicKey slot >>= Openpgp.classify slot

/-- The lines below the heading of a slot. -/
def slotText (H : Host.Crates) (card : StaticCard) (slot : UInt8) : List String :=
  match detected card slot with
  | .ok (curve, pk) => [accountLine H (⟨.openPgp, slot, curve⟩, pk)]
  | .error e => [s!"  (none: {e.display})"]

theorem detected_shape {card : StaticCard} {slot : UInt8} {curve : Curve} {pk : Bytes}
    (h : detected card slot = .ok (curve, pk)) : StaticCard.Shape curve pk := by
  have hlisted : (⟨.openPgp, slot, curve⟩, pk) ∈ card.openpgpListed slot := by
    change card.session Openpgp.aid >>= (fun _ => card.publicKey slot >>= Openpgp.classify slot) =
      _ at h
    unfold StaticCard.openpgpListed
    rw [h]
    exact List.mem_singleton_self _
  exact StaticCard.accountKey_shape (StaticCard.openpgpListed_key hlisted).2.2

variable {card : StaticCard}

theorem listSlot_shows (hcard : card.Holds env) (hout : Writable env) (H : Host.Crates)
    (base64Error : Bytes → String) (name : String) (slot : UInt8) :
    Shows env (listSlot (cratesOf H base64Error) name slot)
      (s!"OpenPGP ({name} slot):" :: slotText H card slot) (.ok ()) := by
  have hdetect : Shows env (liftM (Openpgp.detectAccount slot).run) [] (.ok (detected card slot)) :=
    Action.yields_lift (Yields.of_only (detectAccount_readsCard slot) printed?_of_readsCard
      (StaticCard.run_detectAccount hcard slot))
  refine Shows.println_bind hout _ (Shows.silent_bind hdetect ?_)
  unfold slotText
  cases hfound : detected card slot with
  | error e => exact Shows.println hout _
  | ok found =>
    obtain ⟨curve, pk⟩ := found
    have hformat := formatAddress_of_shape H base64Error (detected_shape hfound)
    simp only [hformat]
    exact Shows.silent_bind (Shows.orFail _) (Shows.println hout _)

def pivLines (infos : List Piv.SlotInfo) : List String :=
  infos.filterMap fun info => info.ed25519Pubkey.map fun pk =>
    s!"  slot {fmtHash04x info.slot}  Solana: {Bs58.encode pk.val}  ({Hex.encode pk.val})"

theorem listPivSlots_shows (hout : Writable env) (infos : List Piv.SlotInfo) (found : Nat) :
    Shows env (listPivSlots infos found) (pivLines infos)
      (.ok (found + (pivLines infos).length)) := by
  induction infos generalizing found with
  | nil => exact Yields.pure _
  | cons info infos ih =>
    unfold listPivSlots pivLines
    cases hkey : info.ed25519Pubkey with
    | none =>
      rw [List.filterMap_cons_none (by rw [hkey]; rfl)]
      exact ih found
    | some pk =>
      rw [List.filterMap_cons_some (by rw [hkey]; rfl), List.length_cons, ← Nat.add_assoc,
        Nat.add_right_comm found _ 1]
      exact Shows.println_bind hout _ (ih (found + 1))

/-- The line that stands for an empty PIV applet. -/
def noSlots : String :=
  "  (none — generate one, e.g. `ykman piv keys generate -a ED25519 9a ...`)"

def pivText (H : Host.Crates) (card : StaticCard) : List String :=
  match card.session Piv.aid with
  | .ok () => if card.pivListed = [] then [noSlots] else card.pivListed.map (accountLine H)
  | .error _ => []

def sigHeading : String := "OpenPGP (SIG slot):"
def autHeading : String := "OpenPGP (AUT slot):"
def pivHeading : String := "PIV slots (Ed25519 → Solana):"

def headings : List String := [sigHeading, autHeading, pivHeading]

def listText (H : Host.Crates) (card : StaticCard) : List String :=
  sigHeading :: slotText H card OpenpgpSlot.sig ++
    autHeading :: slotText H card OpenpgpSlot.aut ++
    pivHeading :: pivText H card

theorem pivLines_eq (H : Host.Crates) {card : StaticCard} (hsession : card.session Piv.aid = .ok ()) :
    pivLines (PivSlot.all.map fun slot => ⟨slot, (card.certificateKey slot).toOption⟩) =
      card.pivListed.map (accountLine H) := by
  rw [pivLines, StaticCard.pivListed, hsession, List.filterMap_map, List.map_filterMap]
  refine List.filterMap_congr fun slot _ => ?_
  simp only [Function.comp_apply, Option.map_map]
  refine Option.map_congr fun k _ => ?_
  have hsplit : "  Solana: " = "  " ++ ("Solana" ++ ": ") := by decide
  simp only [Function.comp_apply, accountLine, chain, Host.address, toString, String.append_assoc,
    hsplit]

theorem list_shows (hcard : card.Holds env) (hout : Writable env) (H : Host.Crates)
    (base64Error : Bytes → String) :
    Shows env (list (cratesOf H base64Error)) (listText H card)
      ((card.session Piv.aid).mapError fun e => .failed e.display) := by
  have hpiv : Shows env (Action.mapErr (fun e => .failed e.display) Piv.listAccounts) []
      ((card.session Piv.aid >>= fun _ => .ok (PivSlot.all.map fun slot =>
        ⟨slot, (card.certificateKey slot).toOption⟩)).mapError fun e => .failed e.display) :=
    Action.yields_mapErr (Yields.of_only listAccounts_readsCard printed?_of_readsCard
      (StaticCard.run_listAccounts hcard)) _
  unfold list listText pivText
  rw [List.append_assoc]
  refine (listSlot_shows hcard hout H base64Error _ _).bind ?_
  refine (listSlot_shows hcard hout H base64Error _ _).bind ?_
  refine Shows.println_bind hout _ ?_
  cases hsession : card.session Piv.aid with
  | error e =>
    rw [hsession] at hpiv
    exact Shows.bind_error hpiv
  | ok u =>
    rw [hsession] at hpiv
    refine Shows.silent_bind hpiv ?_
    have hslots := listPivSlots_shows hout
      (PivSlot.all.map fun slot => ⟨slot, (card.certificateKey slot).toOption⟩) 0
    rw [pivLines_eq H hsession, Nat.zero_add, List.length_map] at hslots
    by_cases hnone : card.pivListed = []
    · rw [if_pos hnone]
      rw [hnone] at hslots
      exact Shows.silent_bind hslots (Shows.println hout _)
    · rw [if_neg hnone, ← List.append_nil (card.pivListed.map _)]
      refine hslots.bind ?_
      rw [if_neg fun h => hnone (List.length_eq_zero_iff.mp h)]
      exact Yields.pure _

theorem address_shows (hcard : card.Holds env) (hout : Writable env) (H : Host.Crates)
    (base64Error : Bytes → String) {args : AccountArgs} {e : Entry}
    (hargs : args.toAccount = .ok e.1) (hkey : card.accountKey e.1 = .ok e.2) :
    Shows env (address (cratesOf H base64Error) args)
      [s!"Public key: {Hex.encode e.2}", s!"{chain e.1.curve}: {Host.address H e.1.curve e.2}"]
      (.ok ()) := by
  have hread : Shows env (Action.mapErr (fun e => .failed e.display) (getPubkey e.1)) []
      ((card.accountKey e.1).mapError fun e => .failed e.display) :=
    Action.yields_mapErr (Yields.of_only (getPubkey_readsCard e.1) printed?_of_readsCard
      (StaticCard.run_getPubkey hcard e.1)) _
  have hformat := formatAddress_of_shape H base64Error (StaticCard.accountKey_shape hkey)
  rw [hkey] at hread
  unfold address
  rw [hargs]
  refine Shows.silent_bind (Shows.orFail _) (Shows.silent_bind hread ?_)
  refine Shows.println_bind hout _ ?_
  rw [hformat]
  exact Shows.silent_bind (Shows.orFail _) (Shows.println hout _)

def isAccountLine (line : String) : Bool :=
  ["  Solana: ", "  Ethereum: ", "  slot "].any fun start => start.toList.isPrefixOf line.toList

/-- The line of an account, from what the host says about it. -/
def hostLine (v : Host.Value) : String :=
  let field key := ((v.get key).bind Host.Value.asStr).getD ""
  let address := field "address"
  let slot := field "slot"
  let pubkey := field "pubkey"
  let text := if field "family" = "evm" then s!"Ethereum: {address}" else s!"Solana: {address}"
  if field "applet" = "piv" then s!"  slot 0x{slot}  {text}  ({pubkey})"
  else s!"  {text}  ({pubkey})"

theorem hostLine_entryJson (H : Host.Crates) (e : Entry) :
    hostLine (Host.entryJson H e) = accountLine H e := by
  obtain ⟨⟨applet, slot, curve⟩, pk⟩ := e
  cases applet with
  | openPgp => cases curve <;> rfl
  | piv => cases curve <;> rfl

theorem isAccountLine_accountLine (H : Host.Crates) (e : Entry) :
    isAccountLine (accountLine H e) = true := by
  obtain ⟨⟨applet, slot, curve⟩, pk⟩ := e
  cases applet with
  | openPgp => cases curve <;> simp [isAccountLine, accountLine, chain, toString]
  | piv => simp [isAccountLine, accountLine, toString]

theorem filter_slotText (H : Host.Crates) (card : StaticCard) (slot : UInt8) :
    (slotText H card slot).filter isAccountLine = (card.openpgpListed slot).map (accountLine H) := by
  have hlisted : card.openpgpListed slot =
      match detected card slot with
      | .ok (curve, pk) => [(⟨.openPgp, slot, curve⟩, pk)]
      | .error _ => [] := rfl
  rw [hlisted, slotText]
  cases detected card slot with
  | ok found =>
    rw [List.filter_cons_of_pos (isAccountLine_accountLine H _)]
    rfl
  | error e => simp [isAccountLine, toString]

theorem filter_pivText (H : Host.Crates) (card : StaticCard) :
    (pivText H card).filter isAccountLine = card.pivListed.map (accountLine H) := by
  unfold pivText
  cases hsession : card.session Piv.aid with
  | error e =>
    rw [StaticCard.pivListed, hsession]
    rfl
  | ok u =>
    simp only
    split
    · rename_i hnone
      have hline : [noSlots].filter isAccountLine = [] := by decide
      rw [hnone, hline, List.map_nil]
    · refine List.filter_eq_self.mpr fun line hline => ?_
      obtain ⟨e, -, rfl⟩ := List.mem_map.mp hline
      exact isAccountLine_accountLine H e

theorem filter_listText (H : Host.Crates) (card : StaticCard) :
    (listText H card).filter isAccountLine = card.listed.map (accountLine H) := by
  have hheading : ∀ line ∈ headings, isAccountLine line = false := by decide
  simp only [headings, List.forall_mem_cons, List.not_mem_nil, false_imp_iff, implies_true,
    and_true] at hheading
  obtain ⟨hsig, haut, hpiv⟩ := hheading
  simp only [listText, StaticCard.listed, List.cons_append, List.append_assoc, List.filter_cons,
    List.filter_append, List.map_append, hsig, haut, hpiv, filter_slotText, filter_pivText]
  rfl

/-- The lines between a heading and the next one. -/
def under (heading : String) (lines : List String) : List String :=
  ((lines.dropWhile (· ≠ heading)).drop 1).takeWhile (· ∉ headings)

/-- The heading of the slot that the host names. -/
def hostHeading (v : Host.Value) : String :=
  let field key := ((v.get key).bind Host.Value.asStr).getD ""
  if field "applet" = "piv" then pivHeading
  else if field "slot" = "sig" then sigHeading else autHeading

/-- A line that starts with a blank is no heading. -/
theorem not_mem_headings {line : String} (h : line.toList.head? = some ' ') :
    line ∉ headings := by
  have hheads : ∀ heading ∈ headings, heading.toList.head? ≠ some ' ' := by decide
  exact fun hmem => hheads line hmem h

theorem accountLine_head (H : Host.Crates) (e : Entry) :
    (accountLine H e).toList.head? = some ' ' := by
  obtain ⟨⟨applet, slot, curve⟩, pk⟩ := e
  cases applet <;> simp [accountLine, toString]

theorem slotText_not_heading (H : Host.Crates) (card : StaticCard) (slot : UInt8) :
    ∀ line ∈ slotText H card slot, line ∉ headings := by
  intro line hline
  refine not_mem_headings ?_
  unfold slotText at hline
  split at hline
  · obtain rfl := List.mem_singleton.mp hline
    exact accountLine_head H _
  · obtain rfl := List.mem_singleton.mp hline
    simp [toString]

theorem pivText_not_heading (H : Host.Crates) (card : StaticCard) :
    ∀ line ∈ pivText H card, line ∉ headings := by
  intro line hline
  refine not_mem_headings ?_
  unfold pivText at hline
  split at hline
  · split at hline
    · obtain rfl := List.mem_singleton.mp hline
      decide
    · obtain ⟨e, -, rfl⟩ := List.mem_map.mp hline
      exact accountLine_head H e
  · cases hline

/-- What stands under a heading that comes before only once. -/
theorem under_append {heading : String} {before body rest : List String}
    (hbefore : heading ∉ before) (hbody : ∀ line ∈ body, line ∉ headings)
    (hrest : ∀ line, rest.head? = some line → line ∈ headings) :
    under heading (before ++ heading :: (body ++ rest)) = body := by
  have hskip : ∀ line ∈ before, decide (line ≠ heading) = true :=
    fun line hline => decide_eq_true fun heq => hbefore (heq ▸ hline)
  have hstop : rest.takeWhile (· ∉ headings) = [] := by
    cases rest with
    | nil => rfl
    | cons line rest => simp [hrest line rfl]
  unfold under
  rw [List.dropWhile_append_of_pos hskip, List.dropWhile_cons_of_neg (by simp), List.drop_one,
    List.tail_cons, List.takeWhile_append_of_pos fun line hline => by simp [hbody line hline],
    hstop, List.append_nil]

/-- Under each heading stands what was found in its slots. -/
theorem under_listText (H : Host.Crates) (card : StaticCard) :
    under sigHeading (listText H card) = slotText H card OpenpgpSlot.sig ∧
      under autHeading (listText H card) = slotText H card OpenpgpSlot.aut ∧
      under pivHeading (listText H card) = pivText H card := by
  have hsig := slotText_not_heading H card OpenpgpSlot.sig
  have haut := slotText_not_heading H card OpenpgpSlot.aut
  have hpiv := pivText_not_heading H card
  have hmem : sigHeading ∈ headings ∧ autHeading ∈ headings ∧ pivHeading ∈ headings := by decide
  have hne : sigHeading ≠ autHeading ∧ sigHeading ≠ pivHeading ∧ autHeading ≠ pivHeading := by
    decide
  refine ⟨?_, ?_, ?_⟩
  · have hunder := @under_append sigHeading [] _
      (autHeading :: slotText H card OpenpgpSlot.aut ++ pivHeading :: pivText H card)
      List.not_mem_nil hsig (by rintro line ⟨⟩; exact hmem.2.1)
    simpa [listText] using hunder
  · have hbefore : autHeading ∉ sigHeading :: slotText H card OpenpgpSlot.sig :=
      List.not_mem_cons_of_ne_of_not_mem hne.1.symm fun h => hsig _ h hmem.2.1
    have hunder := @under_append autHeading _ _ (pivHeading :: pivText H card) hbefore haut
      (by rintro line ⟨⟩; exact hmem.2.2)
    simpa [listText] using hunder
  · have hbefore : pivHeading ∉ sigHeading :: slotText H card OpenpgpSlot.sig ++
        autHeading :: slotText H card OpenpgpSlot.aut := by
      simp only [List.mem_append, List.mem_cons, not_or]
      exact ⟨⟨hne.2.1.symm, fun h => hsig _ h hmem.2.2⟩, hne.2.2.symm, fun h => haut _ h hmem.2.2⟩
    have hunder := @under_append pivHeading _ _ [] hbefore hpiv (by rintro line ⟨⟩)
    simpa [listText] using hunder

theorem hostHeading_openpgp (H : Host.Crates) {slot : UInt8} {e : Entry}
    (he : e ∈ card.openpgpListed slot) : hostHeading (Host.entryJson H e) =
      if slot = OpenpgpSlot.sig then sigHeading else autHeading := by
  unfold StaticCard.openpgpListed at he
  split at he
  · obtain rfl := List.mem_singleton.mp he
    by_cases hslot : slot = OpenpgpSlot.sig <;>
      simp [hostHeading, Host.entryJson_get, Host.Value.asStr, Host.appletStr, Host.slotStr, hslot]
  · cases he

theorem hostHeading_piv (H : Host.Crates) {e : Entry} (he : e ∈ card.pivListed) :
    hostHeading (Host.entryJson H e) = pivHeading := by
  unfold StaticCard.pivListed at he
  split at he
  · obtain ⟨slot, -, hkey⟩ := List.mem_filterMap.mp he
    obtain ⟨k, -, rfl⟩ := Option.map_eq_some_iff.mp hkey
    simp [hostHeading, Host.entryJson_get, Host.Value.asStr, Host.appletStr]
  · cases he

/-- Of the accounts that the host lists, those of a slot come from that slot. -/
theorem filter_listed (H : Host.Crates) (card : StaticCard) :
    let listed := card.listed.map (Host.entryJson H)
    listed.filter (hostHeading · = sigHeading) =
        (card.openpgpListed OpenpgpSlot.sig).map (Host.entryJson H) ∧
      listed.filter (hostHeading · = autHeading) =
        (card.openpgpListed OpenpgpSlot.aut).map (Host.entryJson H) ∧
      listed.filter (hostHeading · = pivHeading) = card.pivListed.map (Host.entryJson H) := by
  have hkeep : ∀ {heading heading' : String} {entries : List Entry},
      (∀ e ∈ entries, hostHeading (Host.entryJson H e) = heading') →
      (entries.map (Host.entryJson H)).filter (hostHeading · = heading) =
        if heading' = heading then entries.map (Host.entryJson H) else [] := by
    intro heading heading' entries hentries
    split
    · refine List.filter_eq_self.mpr fun v hv => ?_
      obtain ⟨e, he, rfl⟩ := List.mem_map.mp hv
      simp [hentries e he, *]
    · refine List.filter_eq_nil_iff.mpr fun v hv => ?_
      obtain ⟨e, he, rfl⟩ := List.mem_map.mp hv
      simp [hentries e he, *]
  have hsig : ∀ e ∈ card.openpgpListed OpenpgpSlot.sig,
      hostHeading (Host.entryJson H e) = sigHeading := fun _ he => hostHeading_openpgp H he
  have haut : ∀ e ∈ card.openpgpListed OpenpgpSlot.aut,
      hostHeading (Host.entryJson H e) = autHeading := fun _ he => hostHeading_openpgp H he
  have hpiv : ∀ e ∈ card.pivListed, hostHeading (Host.entryJson H e) = pivHeading :=
    fun _ he => hostHeading_piv H he
  have hne : sigHeading ≠ autHeading ∧ sigHeading ≠ pivHeading ∧ autHeading ≠ pivHeading := by
    decide
  simp only [StaticCard.listed, List.map_append, List.filter_append, hkeep hsig, hkeep haut,
    hkeep hpiv, hne, hne.1.symm, hne.2.1.symm, hne.2.2.symm, if_true, if_false, List.append_nil,
    List.nil_append, and_self]

/-- Whatever is on the card, the accounts that `list` prints are those that the host lists, in
the same order, under the headings of their slots, with the same addresses and keys. It fails if
and only if the PIV applet cannot be selected, which the host passes over in silence. -/
theorem list_agrees (H : Host.Crates) (base64Error : Bytes → String) (hcard : card.Holds env)
    (hout : Writable env) (h h' : Trace) :
    let shown := Prog.run env (list (cratesOf H base64Error)).run h
    let listed := (Prog.run env (Host.listAccounts H) h').1
    (∃ lines : List String, printed shown.2 = lines.map (· ++ "\n") ∧
      lines.filter isAccountLine = listed.map hostLine ∧
      ∀ heading ∈ headings, (under heading lines).filter isAccountLine =
        (listed.filter (hostHeading · = heading)).map hostLine) ∧
    shown.1 = (card.session Piv.aid).mapError fun e => .failed e.display := by
  obtain ⟨hres, hprinted⟩ := list_shows hcard hout H base64Error h
  have hline : ∀ entries : List Entry,
      (entries.map (Host.entryJson H)).map hostLine = entries.map (accountLine H) := by
    intro entries
    rw [List.map_map]
    exact List.map_congr_left fun e _ => hostLine_entryJson H e
  obtain ⟨hsig, haut, hpiv⟩ := filter_listed H card
  obtain ⟨hunderSig, hunderAut, hunderPiv⟩ := under_listText H card
  refine ⟨⟨listText H card, hprinted, ?_, ?_⟩, hres⟩
  · rw [filter_listText, StaticCard.run_hostListAccounts hcard, hline]
  · intro heading hheading
    rw [StaticCard.run_hostListAccounts hcard]
    simp only [headings, List.mem_cons, List.not_mem_nil, or_false] at hheading
    rcases hheading with rfl | rfl | rfl
    · rw [hunderSig, filter_slotText, hsig, hline]
    · rw [hunderAut, filter_slotText, haut, hline]
    · rw [hunderPiv, filter_pivText, hpiv, hline]

theorem writable_env (card : StaticCard) : Writable card.env := fun _ _ => rfl

theorem list_agrees_hardhat :
    let shown := Prog.run Host.hardhatCard.env
      (list (cratesOf Host.hardhatCrates fun _ => "")).run []
    let listed := (Prog.run Host.hardhatCard.env (Host.listAccounts Host.hardhatCrates) []).1
    (∃ lines : List String, printed shown.2 = lines.map (· ++ "\n") ∧
      lines.filter isAccountLine = listed.map hostLine ∧
      ∀ heading ∈ headings, (under heading lines).filter isAccountLine =
        (listed.filter (hostHeading · = heading)).map hostLine) ∧
    shown.1 = (Host.hardhatCard.session Piv.aid).mapError fun e => .failed e.display :=
  list_agrees Host.hardhatCrates (fun _ => "") Host.hardhatCard.holds_env
    (writable_env Host.hardhatCard) [] []

/-- The arguments that name an account as the host writes it. -/
def argsOf (v : Host.Value) : AccountArgs :=
  let field key := ((v.get key).bind Host.Value.asStr).getD ""
  ⟨field "applet", field "slot", field "curve"⟩

theorem argsOf_entryJson (H : Host.Crates) (e : Entry) :
    argsOf (Host.entryJson H e) =
      ⟨Host.appletStr e.1.applet, Host.slotStr e.1.applet e.1.slot, Host.curveStr e.1.curve⟩ := rfl

/-- A key in a PIV slot is read for Ed25519 only. -/
theorem not_piv_secp256k1 {acc : Account} {pk : Bytes} (h : card.accountKey acc = .ok pk) :
    ¬ (acc.applet = .piv ∧ acc.curve = .secp256k1) := by
  intro hpiv
  obtain ⟨happlet, hcurve⟩ := hpiv
  simp only [StaticCard.accountKey, happlet, Piv.ensureEd25519, hcurve] at h
  cases h

/-- Under the applet, the slot and the curve of an account that the host lists, `address` shows
the key and the address that the host lists it with. -/
theorem address_listed (H : Host.Crates) (base64Error : Bytes → String) (hcard : card.Holds env)
    (hout : Writable env) (h h' : Trace) (v : Host.Value)
    (hv : v ∈ (Prog.run env (Host.listAccounts H) h').1) :
    let shown := Prog.run env (address (cratesOf H base64Error) (argsOf v)).run h
    ∃ curve pubkey addr, v.get "curve" = some (.str (Host.curveStr curve)) ∧
      v.get "pubkey" = some (.str pubkey) ∧ v.get "address" = some (.str addr) ∧
      printed shown.2 = [s!"Public key: {pubkey}" ++ "\n", s!"{chain curve}: {addr}" ++ "\n"] ∧
      shown.1 = .ok () := by
  rw [StaticCard.run_hostListAccounts hcard] at hv
  obtain ⟨e, he, rfl⟩ := List.mem_map.mp hv
  obtain ⟨hslot, hkey⟩ := StaticCard.listed_key he
  obtain ⟨-, -, -, hcurve, haddr, hpubkey⟩ := Host.entryJson_get H e
  have hargs : (argsOf (Host.entryJson H e)).toAccount = .ok e.1 := by
    rw [argsOf_entryJson]
    refine (Host.toAccount_eq_ok_iff _ _ _ _).mpr ⟨?_, not_piv_secp256k1 hkey⟩
    exact ⟨Host.fromStr_appletStr _, Host.parseSlot_slotStr hslot, Host.fromStr_curveStr _⟩
  obtain ⟨hres, hprinted⟩ := address_shows hcard hout H base64Error hargs hkey h
  exact ⟨e.1.curve, _, _, hcurve, hpubkey, haddr, hprinted, hres⟩

theorem address_listed_hardhat :
    let shown := Prog.run Host.hardhatCard.env
      (address (cratesOf Host.hardhatCrates fun _ => "") (argsOf Host.hardhatEntry)).run []
    ∃ curve pubkey addr, Host.hardhatEntry.get "curve" = some (.str (Host.curveStr curve)) ∧
      Host.hardhatEntry.get "pubkey" = some (.str pubkey) ∧
      Host.hardhatEntry.get "address" = some (.str addr) ∧
      printed shown.2 = [s!"Public key: {pubkey}" ++ "\n", s!"{chain curve}: {addr}" ++ "\n"] ∧
      shown.1 = .ok () :=
  address_listed Host.hardhatCrates (fun _ => "") Host.hardhatCard.holds_env
    (writable_env Host.hardhatCard) [] [] Host.hardhatEntry Host.hardhatEntry_mem

end YubiWallet.Cli
