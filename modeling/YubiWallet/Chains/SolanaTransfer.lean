import YubiWallet.Chains.Solana
import YubiWallet.Host.ListedSigner

/-! What `sol_surfpool` sends, read back as a transaction, and what the card has signed. -/
namespace YubiWallet.Chains.Solana
open Interaction Endian

theorem continued_eq (n : Nat) :
    UInt8.ofNat (n &&& 0x7F) ||| 0x80 = UInt8.ofNat (n % 128 + 128) := by
  have hor : ∀ k : Fin 128, UInt8.ofNat k ||| 0x80 = UInt8.ofNat (k + 128) := by decide
  have hand : n &&& 0x7F = n % 128 := Nat.and_two_pow_sub_one_eq_mod n 7
  rw [hand]
  exact hor ⟨n % 128, Nat.mod_lt n (by decide)⟩

theorem compactU16_eq (n : Nat) (out : Bytes) : compactU16 n out = out ++ Varint.write n := by
  fun_induction compactU16 n out with
  | case1 n out hmore ih =>
    have hdiv : n >>> 7 = n / 128 := Nat.shiftRight_eq_div_pow n 7
    rw [hdiv] at hmore ih ⊢
    rw [ih, continued_eq, Varint.write_of_le (n := n) (by omega), List.append_assoc]
    rfl
  | case2 n out hlast =>
    have hdiv : n >>> 7 = n / 128 := Nat.shiftRight_eq_div_pow n 7
    have hand : n &&& 0x7F = n % 128 := Nat.and_two_pow_sub_one_eq_mod n 7
    rw [hdiv] at hlast
    rw [hand, Nat.mod_eq_of_lt (by omega), Varint.write_of_lt (by omega)]

/-- The bytes behind `out` are read back as the length if it has 16 bits, whatever follows.
Above that they are no length. -/
theorem compactU16_reads (n : Nat) (out rest : Bytes) :
    ∃ c, compactU16 n out = out ++ c ∧
      SolanaTx.shortLength.read (c ++ rest) =
        if h : n < 2 ^ 16 then some (⟨n, h⟩, rest) else none := by
  refine ⟨Varint.write n, compactU16_eq n out, ?_⟩
  split
  · rename_i h
    exact SolanaTx.shortLength.read_write ⟨n, h⟩ rest
  · rename_i h
    by_contra hread
    obtain ⟨⟨k, rest'⟩, hk⟩ := Option.ne_none_iff_exists'.mp hread
    exact h ((SolanaTx.read_shortLength_iff n rest).mp ⟨k, rest', hk⟩)

def header : SolanaTx.Header := ⟨1, 0, 1⟩

/-- The accounts: who pays, who is paid, and the program. -/
def accountKeys (fromKey toKey : BytesN 32) : SolanaTx.Short SolanaTx.Key :=
  ⟨[fromKey, toKey, SolanaTx.systemProgram], (by decide : 3 < 2 ^ 16)⟩

def instruction : SolanaTx.Instruction where
  program := 2
  accounts := ⟨[0, 1], by decide⟩
  data := ⟨transferData, by decide⟩

def transfer (fromKey toKey blockhash : BytesN 32) : SolanaTx.Message where
  header := header
  accountKeys := accountKeys fromKey toKey
  recentBlockhash := blockhash
  instructions := ⟨[instruction], (by decide : 1 < 2 ^ 16)⟩

def signed (sig : SolanaTx.Signature) (m : SolanaTx.Message) : SolanaTx.Tx :=
  ⟨⟨[sig], (by decide : 1 < 2 ^ 16)⟩, m⟩

theorem write_instruction : SolanaTx.instruction.write instruction =
    [2] ++ Varint.write 2 ++ [0, 1] ++ Varint.write transferData.length ++ transferData := by
  rw [SolanaTx.write_instruction]
  simp [instruction]

theorem write_transfer (fromKey toKey blockhash : BytesN 32) :
    SolanaTx.message.write (transfer fromKey toKey blockhash) =
      message fromKey toKey blockhash := by
  rw [SolanaTx.write_message]
  simp only [transfer, List.flatMap_singleton, write_instruction]
  simp only [message, compactU16_eq, header, SolanaTx.write_header, accountKeys,
    List.length_cons, List.length_nil, List.flatMap_cons, List.flatMap_nil, List.append_assoc,
    List.cons_append, List.nil_append, SolanaTx.systemProgram, systemProgram, BytesN.fill]

theorem write_signed (sig : SolanaTx.Signature) (fromKey toKey blockhash : BytesN 32) :
    SolanaTx.tx.write (signed sig (transfer fromKey toKey blockhash)) =
      rawTx sig.val (message fromKey toKey blockhash) := by
  rw [SolanaTx.write_tx]
  simp only [signed, write_transfer, rawTx, compactU16_eq, List.length_singleton,
    List.flatMap_singleton, List.nil_append]

theorem transfer_legacy (fromKey toKey blockhash : BytesN 32) :
    (transfer fromKey toKey blockhash).Legacy := by
  change (1 : UInt8) < 128
  decide

/-- Nothing asks how long the card's signature is: the bytes are a transaction with this
message if it has 64 bytes, and otherwise they are not. -/
theorem read_signed_iff (sig : Bytes) (fromKey toKey blockhash : BytesN 32) :
    (∃ t, SolanaTx.legacyTx.read (rawTx sig (message fromKey toKey blockhash)) = some (t, []) ∧
      t.val.message = transfer fromKey toKey blockhash) ↔ sig.length = 64 := by
  constructor
  · intro h
    obtain ⟨⟨t, hlegacy⟩, hread, hmessage⟩ := h
    have hwrite := (SolanaTx.legacyTx.read_eq_nil_iff _ _).mp hread
    change _ = SolanaTx.tx.write t at hwrite
    change t.message = _ at hmessage
    rw [SolanaTx.write_tx, hmessage, write_transfer, rawTx, compactU16_eq] at hwrite
    have hfront := List.append_cancel_right hwrite
    have hcount : Varint.format.write 1 ++ sig =
        Varint.format.write t.signatures.val.length ++ t.signatures.val.flatMap Subtype.val :=
      hfront
    -- the count is one, so there is one signature
    obtain ⟨hone, hsig⟩ := Varint.format.write_prefix_free hcount
    obtain ⟨s, hs⟩ := List.length_eq_one_iff.mp hone.symm
    rw [hsig, hs, List.flatMap_singleton, s.property]
  · intro h
    refine ⟨⟨signed ⟨sig, h⟩ _, transfer_legacy fromKey toKey blockhash⟩, ?_, rfl⟩
    exact (SolanaTx.legacyTx.read_eq_nil_iff _ _).mpr (write_signed ⟨sig, h⟩ _ _ _).symm

theorem transfers_transfer (fromKey toKey blockhash : BytesN 32) :
    (transfer fromKey toKey blockhash).transfers = [⟨fromKey, toKey, 1000⟩] := by
  have hdata : SolanaTx.transferData.read transferData = some (1000, []) := by
    rw [Format.read_eq_nil_iff, SolanaTx.write_transferData]
    rfl
  have hinstruction : (transfer fromKey toKey blockhash).transfer? instruction =
      some ⟨fromKey, toKey, 1000⟩ := by
    have hprogram : (accountKeys fromKey toKey).val[instruction.program.toNat]? =
        some SolanaTx.systemProgram := rfl
    have hsource : (instruction.accounts.val[0]?.bind
        ((accountKeys fromKey toKey).val[·.toNat]?)) = some fromKey := rfl
    have hdest : (instruction.accounts.val[1]?.bind
        ((accountKeys fromKey toKey).val[·.toNat]?)) = some toKey := rfl
    have hamount : SolanaTx.transferData.read instruction.data.val = some (1000, []) := hdata
    simp only [SolanaTx.Message.transfer?, transfer, hprogram, hsource, hdest, hamount,
      Option.bind_eq_bind, Option.bind_some, if_true]
    rfl
  change List.filterMap _ [instruction] = _
  rw [List.filterMap_cons_some hinstruction, List.filterMap_nil]

theorem signer_iff (fromKey toKey blockhash : BytesN 32) (i : Nat) :
    (transfer fromKey toKey blockhash).Signer i ↔ i = 0 := Nat.lt_one_iff

theorem writable_iff (fromKey toKey blockhash : BytesN 32) (i : Nat) :
    (transfer fromKey toKey blockhash).Writable i ↔ i < 2 := by
  change i < 1 - 0 ∨ 1 ≤ i ∧ i < 3 - 1 ↔ i < 2
  omega

theorem sane_iff (sig : SolanaTx.Signature) (fromKey toKey blockhash : BytesN 32) :
    (signed sig (transfer fromKey toKey blockhash)).Sane ↔
      fromKey ≠ toKey ∧ fromKey ≠ SolanaTx.systemProgram ∧ toKey ≠ SolanaTx.systemProgram := by
  have hnodup : (accountKeys fromKey toKey).val.Nodup ↔
      fromKey ≠ toKey ∧ fromKey ≠ SolanaTx.systemProgram ∧ toKey ≠ SolanaTx.systemProgram := by
    simp [accountKeys, and_assoc]
  constructor
  · intro h
    exact hnodup.mp h.message.noDuplicates
  · intro h
    refine ⟨⟨(by decide : 1 + 1 ≤ 3), (by decide : (0 : UInt8) < 1), hnodup.mpr h, ?_, ?_⟩, rfl⟩
    · intro i hi
      obtain rfl := List.mem_singleton.mp hi
      exact ⟨by decide, (by decide : 2 < 3)⟩
    · intro i hi
      obtain rfl := List.mem_singleton.mp hi
      exact List.forall_mem_cons.mpr ⟨(by decide : 0 < 3),
        List.forall_mem_singleton.mpr (by decide : 1 < 3)⟩

/-- The message is read back as one that asks for the one transfer, only the sender signs and only
the two accounts may change. With its signature it is sane if they differ from each other and from
the program. -/
theorem transfer_asks (fromKey toKey blockhash : BytesN 32) :
    ∃ m, SolanaTx.message.read (message fromKey toKey blockhash) = some (m, []) ∧
      m.transfers = [⟨fromKey, toKey, 1000⟩] ∧ (∀ i, m.Signer i ↔ i = 0) ∧
      (∀ i, m.Writable i ↔ i < 2) ∧
      ∀ sig : SolanaTx.Signature,
        SolanaTx.tx.read (rawTx sig.val (message fromKey toKey blockhash)) =
          some (signed sig m, []) ∧
        ((signed sig m).Sane ↔ fromKey ≠ toKey ∧ fromKey ≠ SolanaTx.systemProgram ∧
          toKey ≠ SolanaTx.systemProgram) := by
  refine ⟨transfer fromKey toKey blockhash, ?_, transfers_transfer _ _ _, signer_iff _ _ _,
    writable_iff _ _ _, fun sig => ⟨?_, sane_iff sig fromKey toKey blockhash⟩⟩
  · exact (SolanaTx.message.read_eq_nil_iff _ _).mpr (write_transfer _ _ _).symm
  · exact (SolanaTx.tx.read_eq_nil_iff _ _).mpr (write_signed _ _ _ _).symm

theorem toArray_eq_some_iff {n : Nat} {b : Bytes} {k : BytesN n} :
    toArray n b = some k ↔ b = k.val := by
  constructor
  · intro h
    exact (Host.toArray_eq_some h).symm
  · intro h
    rw [h, toArray, dif_pos k.property]

/-- The text is the base58 form of the array that it gives. -/
theorem b58_eq_ok_iff (s : String) (k : BytesN 32) : b58 s = .ok k ↔ s = Bs58.encode k.val := by
  rw [← Bs58.decode_eq_some_iff]
  constructor
  · intro h
    obtain ⟨b, hb, hk⟩ := Outcome.bind_eq_ok_iff.mp h
    rw [expectSome_eq_ok_iff.mp hb, toArray_eq_some_iff.mp (expectSome_eq_ok_iff.mp hk)]
  · intro h
    refine Outcome.bind_eq_ok_iff.mpr ⟨k.val, expectSome_eq_ok_iff.mpr h, ?_⟩
    exact expectSome_eq_ok_iff.mpr (toArray_eq_some_iff.mpr rfl)

theorem decode_prefixed (s : String) : Bs58.decode ("0x" ++ s) = none := by
  have hdigit : Bs58.digit '0' = none := by decide
  have hchars : ("0x" ++ s).toList = '0' :: 'x' :: s.toList := by simp
  rw [Bs58.decode, hchars, List.mapM_cons, hdigit]
  rfl

/-- The address of a listed account names a recipient if it is the address of an Ed25519 key,
and then it names this key. -/
theorem listed_b58 (C : Host.Crates) {card : StaticCard} {env : Env} (hcard : card.HoldsKeys env)
    (h : Trace) (v : Host.Value) (hv : v ∈ (Prog.run env (Host.listAccounts C) h).1) :
    ∃ curve pk addr, v.get "curve" = some (.str (Host.curveStr curve)) ∧
      v.get "pubkey" = some (.str (Hex.encode pk)) ∧ v.get "address" = some (.str addr) ∧
      ∀ k, b58 addr = .ok k ↔ curve = .ed25519 ∧ k.val = pk := by
  rw [StaticCard.run_listAccounts_keys hcard] at hv
  obtain ⟨e, he, rfl⟩ := List.mem_map.mp hv
  obtain ⟨-, -, -, hcurve, haddr, hpubkey⟩ := Host.entryJson_get C e
  have hshape := StaticCard.accountKey_shape (StaticCard.listed_key he).2
  refine ⟨e.1.curve, e.2, _, hcurve, hpubkey, haddr, fun k => ?_⟩
  have hof := Host.address_of_shape C hshape
  cases hc : e.1.curve with
  | ed25519 =>
    rw [hc] at hof
    rw [b58_eq_ok_iff, hof.2.1]
    constructor
    · intro hk
      exact ⟨rfl, (Bs58.encode_injective hk).symm⟩
    · intro hk
      rw [hk.2]
  | secp256k1 =>
    rw [hc] at hof
    obtain ⟨a, digits, -, -, hprefix, -⟩ := hof
    rw [b58_eq_ok_iff, ← Bs58.decode_eq_some_iff, hprefix, decode_prefixed]
    constructor
    · intro hk
      cases hk
    · intro hk
      cases hk.1

theorem listed_b58_sample :
    ∃ curve pk addr, Host.sampleEntry.get "curve" = some (.str (Host.curveStr curve)) ∧
      Host.sampleEntry.get "pubkey" = some (.str (Hex.encode pk)) ∧
      Host.sampleEntry.get "address" = some (.str addr) ∧
      ∀ k, b58 addr = .ok k ↔ curve = .ed25519 ∧ k.val = pk :=
  listed_b58 Host.sampleCrates Host.sampleCard_holdsKeys [] Host.sampleEntry Host.sampleEntry_mem

/-- No occurrence of `m` starts within `pre` when `m` stands behind it. -/
def FirstBehind (m pre : String) : Prop := ¬ m.toList <:+: pre.toList ++ m.toList.dropLast

theorem splitOnce_iff {sep : String} (hne : sep.toList ≠ []) (s a b : String) :
    splitOnce s sep = some (a, b) ↔ s = a ++ sep ++ b ∧ FirstBehind sep a := by
  have hsplit := Window.splitOnce_eq_some_iff hne s.toList a.toList b.toList
  have htext : s = a ++ sep ++ b ↔ s.toList = a.toList ++ sep.toList ++ b.toList := by
    rw [← String.toList_inj, String.toList_append, String.toList_append]
  rw [htext, FirstBehind, ← hsplit, splitOnce, Option.map_eq_some_iff]
  constructor
  · intro h
    obtain ⟨x, hx, heq⟩ := h
    obtain ⟨rfl, rfl⟩ := Prod.mk.inj heq
    rw [hx, String.toList_ofList, String.toList_ofList]
  · intro h
    exact ⟨_, h, by simp⟩

def keyMark (key : String) : String := "\"" ++ key ++ "\":\""

theorem jsonStr_eq_some_iff (body key s : String) :
    jsonStr body key = some s ↔
      ∃ pre post, body = pre ++ keyMark key ++ (s ++ "\"" ++ post) ∧
        FirstBehind (keyMark key) pre ∧ '"' ∉ s.toList := by
  have hmark : (keyMark key).toList ≠ [] := by simp [keyMark]
  have hquote : ∀ t : String, FirstBehind "\"" t ↔ '"' ∉ t.toList := fun t => by
    change ¬ ['"'] <:+: t.toList ++ [] ↔ _
    rw [List.append_nil, List.singleton_infix_iff]
  change (splitOnce body (keyMark key)).bind _ = some s ↔ _
  simp only [Option.bind_eq_some_iff, Option.map_eq_some_iff]
  constructor
  · intro h
    obtain ⟨⟨pre, rest⟩, hrest, ⟨value, post⟩, hvalue, rfl⟩ := h
    obtain ⟨rfl, hpre⟩ := (splitOnce_iff hmark _ _ _).mp hrest
    obtain ⟨rfl, hfirst⟩ := (splitOnce_iff (by decide) _ _ _).mp hvalue
    exact ⟨pre, post, rfl, hpre, (hquote value).mp hfirst⟩
  · intro h
    obtain ⟨pre, post, rfl, hpre, hs⟩ := h
    refine ⟨(pre, s ++ "\"" ++ post), (splitOnce_iff hmark _ _ _).mpr ⟨rfl, hpre⟩, (s, post), ?_, rfl⟩
    exact (splitOnce_iff (by decide) _ _ _).mpr ⟨rfl, (hquote s).mpr hs⟩

/-- An empty body has no keys. -/
theorem jsonStr_empty (key : String) : jsonStr "" key = none := by
  refine Option.eq_none_iff_forall_ne_some.mpr fun s h => ?_
  obtain ⟨pre, post, hempty, -⟩ := (jsonStr_eq_some_iff "" key s).mp h
  have hquote : "\"".length = 1 := rfl
  have hlen := congrArg String.length hempty
  simp only [String.length_empty, keyMark, String.length_append, hquote] at hlen
  omega

/-- What is read out of a response: the text behind the first mark of the key that stands
behind the first empty line, up to the next quotation mark. -/
theorem jsonStr_responseBody_iff (resp key s : String) :
    jsonStr (responseBody resp) key = some s ↔
      ∃ head pre post, resp = head ++ "\r\n\r\n" ++ (pre ++ keyMark key ++ (s ++ "\"" ++ post)) ∧
        FirstBehind "\r\n\r\n" head ∧ FirstBehind (keyMark key) pre ∧ '"' ∉ s.toList := by
  have hblank : "\r\n\r\n".toList ≠ [] := by decide
  have hbody : jsonStr (responseBody resp) key = some s ↔
      ∃ head body, splitOnce resp "\r\n\r\n" = some (head, body) ∧ jsonStr body key = some s := by
    unfold responseBody
    cases splitOnce resp "\r\n\r\n" with
    | none => simp [jsonStr_empty]
    | some x => simp [Prod.ext_iff]
  rw [hbody]
  constructor
  · intro h
    obtain ⟨head, body, hsplit, hs⟩ := h
    obtain ⟨rfl, hhead⟩ := (splitOnce_iff hblank _ _ _).mp hsplit
    obtain ⟨pre, post, rfl, hpre, hquote⟩ := (jsonStr_eq_some_iff _ _ _).mp hs
    exact ⟨head, pre, post, rfl, hhead, hpre, hquote⟩
  · intro h
    obtain ⟨head, pre, post, rfl, hhead, hpre, hquote⟩ := h
    exact ⟨head, _, (splitOnce_iff hblank _ _ _).mpr ⟨rfl, hhead⟩,
      (jsonStr_eq_some_iff _ _ _).mpr ⟨pre, post, rfl, hpre, hquote⟩⟩

def recipient : BytesN 32 :=
  ⟨beBytes 32 0x069b8857feab8184fb687f634618c035dac439dc1aeb3b5598a0f00000000001,
    beBytes_length 32 _⟩

theorem b58_recipient : b58 recipientB58 = .ok recipient := by decide +kernel

abbrev SolTrace := Interaction.Trace (Op ⊕ Net) (Either Op.Ans Net.Ans)

/-- One request to the node, and the body of what it has answered. -/
def Asked (method params body : String) (t : SolTrace) : Prop :=
  ∃ (env : Option String) (resp : String), responseBody resp = body ∧
    t = [Event.inl ⟨.envVar "SOLANA_RPC", env⟩,
      Event.inr ⟨.connect (env.getD defaultAddr), Except.ok ()⟩,
      Event.inr ⟨.writeAll (asBytes (request (env.getD defaultAddr) (requestBody method params))),
        Except.ok ()⟩,
      Event.inr ⟨.readToString, Except.ok resp⟩]

theorem rpc_always (method params : String) :
    Prog.Always (rpc method params).run fun t r =>
      ∀ body, r = .ok body → Asked method params body t := by
  refine (Action.always_bind _ _ _).mpr ((Action.always_inl _ _).mpr ?_)
  refine (Action.always_lift (YubiWallet.perform (.envVar "SOLANA_RPC")) _).mpr fun env => ?_
  refine Action.always_bind_of (Action.always_demand (Prog.always_request _) _)
    (fun _ _ _ _ h => nomatch h) fun connecting u hconnect => ?_
  refine Action.always_bind_of (Action.always_demand (Prog.always_request _) _)
    (fun _ _ _ _ h => nomatch h) fun writing u' hwrite => ?_
  refine Action.always_bind_of (Action.always_demand (Prog.always_request _) _)
    (fun _ _ _ _ h => nomatch h) fun reading resp hread => ?_
  intro body hbody
  refine ⟨env, resp, Except.ok.inj hbody, ?_⟩
  rw [hconnect u rfl, hwrite u' rfl, hread resp rfl]
  rfl

/-- A run that got to its end: the key is read, the node is asked for funds and, after the
pause, for a recent block, the message that names this block is signed, and the transaction is
sent. -/
structure Course (args : List String) (t : SolTrace) where
  slotStr : String
  acc : Account
  fromKey : BytesN 32
  blockhash : BytesN 32
  sig : Bytes
  funded : String
  block : String
  send : String
  reading : Trace
  funding : SolTrace
  asking : SolTrace
  signing : Trace
  sending : SolTrace
  account_eq : account args = .ok (slotStr, acc)
  reads : ReadsKey acc fromKey.val (exchanges reading)
  funds : Asked "requestAirdrop" (airdropParams (Bs58.encode fromKey.val)) funded funding
  asks : Asked "getLatestBlockhash" "[]" block asking
  names : jsonStr block "blockhash" = some (Bs58.encode blockhash.val)
  signs : Signs acc (message fromKey recipient blockhash) sig (exchanges signing)
  sends : Asked "sendTransaction"
    (sendParams (Standard64.encode (rawTx sig (message fromKey recipient blockhash)))) send sending
  eq : t = reading.map Event.inl ++ (funding ++ ([Event.inr ⟨.sleep 8, ()⟩] ++ (asking ++
    (signing.map Event.inl ++ (sending ++ [Event.inl ⟨.print
      (report slotStr (Bs58.encode fromKey.val) send ++ "\n"), Except.ok ()⟩])))))

theorem main_always (args : List String) :
    Prog.Always (main args).run fun t r => ∀ u, r = .ok u → Nonempty (Course args t) := by
  refine Action.always_ofExcept_bind_of (fun _ _ _ h => nomatch h) fun x haccount => ?_
  obtain ⟨slotStr, acc⟩ := x
  refine Action.always_bind_of (Action.always_inl_of (getPubkey_always acc "pubkey"))
    (fun _ _ _ _ h => nomatch h) fun t₁ pk h₁ => ?_
  obtain ⟨reading, rfl, hreads⟩ := h₁
  refine Action.always_ofExcept_bind_of (fun _ _ _ h => nomatch h) fun fromKey hfrom => ?_
  generalize hdecoded : b58 recipientB58 = decoded
  refine Action.always_ofExcept_bind_of (fun _ _ _ h => nomatch h) fun toKey hto => ?_
  refine Action.always_bind_of (rpc_always _ _) (fun _ _ _ _ h => nomatch h)
    fun funding funded hfunds => ?_
  refine (Action.always_bind _ _ _).mpr ((Action.always_lift (perform _) _).mpr fun _ => ?_)
  refine Action.always_bind_of (rpc_always _ _) (fun _ _ _ _ h => nomatch h)
    fun asking block hasks => ?_
  refine Action.always_ofExcept_bind_of (fun _ _ _ h => nomatch h) fun text htext => ?_
  refine Action.always_ofExcept_bind_of (fun _ _ _ h => nomatch h) fun blockhash hblockhash => ?_
  refine Action.always_bind_of (Action.always_inl_of (sign_always acc _ "card sign"))
    (fun _ _ _ _ h => nomatch h) fun t₂ sig h₂ => ?_
  obtain ⟨signing, rfl, hsigns⟩ := h₂
  refine Action.always_bind_of (rpc_always _ _) (fun _ _ _ _ h => nomatch h)
    fun sending send hsends => ?_
  refine Prog.Always.mono (Action.always_inl_of (printLine_always _ _)) fun t₃ r h₃ u hr => ?_
  obtain ⟨printing, rfl, hprint⟩ := h₃
  obtain rfl := hprint u hr
  obtain rfl : recipient = toKey := Except.ok.inj (b58_recipient.symm.trans (hdecoded.trans hto))
  have hpk : pk = fromKey.val := toArray_eq_some_iff.mp (expectSome_eq_ok_iff.mp hfrom)
  have hblock : text = Bs58.encode blockhash.val := (b58_eq_ok_iff _ _).mp hblockhash
  exact ⟨{
    slotStr, acc, fromKey, blockhash, sig, funded, block, send, reading, funding, asking,
    signing, sending
    account_eq := haccount
    reads := hpk ▸ hreads pk rfl
    funds := hfunds funded rfl
    asks := hasks block rfl
    names := hblock ▸ expectSome_eq_ok_iff.mp htext
    signs := hsigns sig rfl
    sends := hsends send rfl
    eq := rfl }⟩

/-- The text that was sent is the transfer in base64, and the card has signed its message. -/
structure Sent {args : List String} {t : SolTrace} (c : Course args t)
    (hsig : c.sig.length = 64) : Prop where
  reads : ∃ (text : String) (tx : { tx : SolanaTx.Tx // tx.message.Legacy }),
    Asked "sendTransaction" (sendParams text) c.send c.sending ∧
    (Standard64.decode text).bind SolanaTx.legacyTx.read = some (tx, []) ∧
    tx.val = signed ⟨c.sig, hsig⟩ (transfer c.fromKey recipient c.blockhash) ∧
    tx.val.message.transfers = [⟨c.fromKey, recipient, 1000⟩] ∧
    (∀ i, tx.val.message.Signer i ↔ i = 0) ∧
    Signs c.acc (SolanaTx.message.write tx.val.message) c.sig (exchanges c.signing)

theorem Course.sent {args : List String} {t : SolTrace} (c : Course args t)
    (hsig : c.sig.length = 64) : Sent c hsig := by
  have hread : (Standard64.decode (Standard64.encode
      (rawTx c.sig (message c.fromKey recipient c.blockhash)))).bind SolanaTx.legacyTx.read =
      some (⟨signed ⟨c.sig, hsig⟩ (transfer c.fromKey recipient c.blockhash),
        transfer_legacy c.fromKey recipient c.blockhash⟩, []) := by
    rw [Standard64.decode_encode]
    exact (SolanaTx.legacyTx.read_eq_nil_iff _ _).mpr (write_signed ⟨c.sig, hsig⟩ _ _ _).symm
  have hsigns : Signs c.acc
      (SolanaTx.message.write (transfer c.fromKey recipient c.blockhash)) c.sig
      (exchanges c.signing) := by
    rw [write_transfer]
    exact c.signs
  exact ⟨⟨_, _, c.sends, hread, rfl, transfers_transfer _ _ _, signer_iff _ _ _, hsigns⟩⟩

/-- Whatever the card and the node answer: a run of `sol_surfpool` that ends well has asked
for the key, for funds, for a block and for a signature, in this order, and has sent the
transaction of 1000 lamports that names this block and bears this signature. -/
theorem main_transfers (args : List String) (env : Interaction.Env (Op ⊕ Net) (Either Op.Ans Net.Ans))
    (h : SolTrace) (hok : (Prog.run env (main args).run h).1 = .ok ()) :
    ∃ c : Course args (Prog.run env (main args).run h).2, ∀ hsig : c.sig.length = 64, Sent c hsig := by
  obtain ⟨c⟩ := (main_always args).run env h () hok
  exact ⟨c, c.sent⟩

/-- A node that knows one block, and the sample card. -/
def sampleEnv : Interaction.Env (Op ⊕ Net) (Either Op.Ans Net.Ans) := fun _ op =>
  match op with
  | .inl op => pivSample [] op
  | .inr (.connect _) => Except.ok ()
  | .inr (.writeAll _) => Except.ok ()
  | .inr .readToString => Except.ok
      "HTTP/1.1 200 OK\r\n\r\n\x7b\"blockhash\":\"11111111111111111111111111111111\"\x7d"
  | .inr (.sleep _) => ()

theorem sample_ok : (Prog.run sampleEnv (main ["sol_surfpool", "9a"]).run []).1 = .ok () := by
  decide +kernel

theorem main_transfers_sample :
    ∃ c : Course ["sol_surfpool", "9a"] (Prog.run sampleEnv (main ["sol_surfpool", "9a"]).run []).2,
      ∀ hsig : c.sig.length = 64, Sent c hsig :=
  main_transfers ["sol_surfpool", "9a"] sampleEnv [] sample_ok

end YubiWallet.Chains.Solana
