/-
  Subject:   What the two sides read in each other's frames.
-/
import Frogg.Relay.ChannelPair

namespace Frogg.Relay

open Library Json List

/-! ## 1. Handshake texts -/

theorem IsBase64Letter.plain {c : Char} (h : IsBase64Letter c) : Json.Plain c := by
  have := h.toNat
  exact ⟨by omega, h.ne (by decide), h.ne (by decide)⟩

/-- The hello of a key, as it parses. -/
def helloJson (key : String) : Json :=
  .object [("type", .string "e2ee_hello"), ("key", .string key),
    ("capabilities", .object [("binaryCiphertext", .bool true)])]

theorem toList_append_append (a b c : String) :
    (a ++ b ++ c).toList = a.toList ++ b.toList ++ c.toList := by
  rw [String.toList_append, String.toList_append]

/-- The last member of both texts. -/
def capabilitiesText : List Char :=
  '"' :: ("capabilities".toList ++ '"' :: ':' ::
    '\x7b' :: '"' :: ("binaryCiphertext".toList ++ '"' :: ':' ::
      't' :: 'r' :: 'u' :: 'e' :: '\x7d' :: '\x7d' :: []))

theorem parseMembers_capabilitiesText (fuel : Nat) :
    parseMembers (fuel + 4) capabilitiesText =
      some ([("capabilities", .object [("binaryCiphertext", .bool true)])], []) := by
  refine parseMembers_last (parseString_all rfl _) (parseValue_members ?_)
  exact parseMembers_last (parseString_all rfl _) (parseValue_true _ _)

theorem helloText_toList (key : String) : (helloText key).toList =
    '\x7b' :: '"' :: ("type".toList ++ '"' :: ':' :: '"' :: ("e2ee_hello".toList ++ '"' :: ',' ::
    '"' :: ("key".toList ++ '"' :: ':' :: '"' :: (key.toList ++ '"' :: ',' ::
    capabilitiesText)))) := by
  have hbefore : "\x7b\"type\":\"e2ee_hello\",\"key\":\"".toList =
      '\x7b' :: '"' :: ("type".toList ++ '"' :: ':' :: '"' :: ("e2ee_hello".toList ++ '"' :: ',' ::
      '"' :: ("key".toList ++ '"' :: ':' :: '"' :: []))) := by decide
  have hafter : "\",\"capabilities\":\x7b\"binaryCiphertext\":true\x7d\x7d".toList =
      '"' :: ',' :: capabilitiesText := by decide
  refine (toList_append_append _ _ _).trans ?_
  rw [hbefore, hafter]
  simp only [append_assoc, cons_append, nil_append]

theorem parse_helloText {key : String} (h : ∀ c ∈ key.toList, Json.Plain c) :
    parse (helloText key) = some (helloJson key) := by
  refine parse_of_parseValue ?_ fun fuel => ?_
  · rw [helloText_toList, length_cons, length_cons, length_append, length_cons]; omega
  · rw [helloText_toList]
    refine parseValue_members ?_
    refine parseMembers_more (parseString_all rfl _) (parseValue_string (plain_of_all rfl) _ _) ?_
    refine parseMembers_more (parseString_all rfl _) (parseValue_string h _ _) ?_
    exact parseMembers_capabilitiesText _

theorem helloJson_field (key : String) :
    (helloJson key).field? "type" = some (.string "e2ee_hello") ∧
      (helloJson key).field? "key" = some (.string key) ∧
      (helloJson key).field? "capabilities" = some (.object [("binaryCiphertext", .bool true)]) :=
  ⟨rfl, rfl, rfl⟩

theorem isE2EEHelloMessage_helloJson {key : String} (h : jsTrim key ≠ "") :
    isE2EEHelloMessage (helloJson key) = true := by
  obtain ⟨htype, hkey, hcaps⟩ := helloJson_field key
  have hhas : hasKey (helloJson key) = true := by simp [hasKey, helloKey, hkey, h]
  simp only [isE2EEHelloMessage, hasType, htype, hhas, hcaps]
  rfl

/-- The ready that negotiates binary ciphertext, as it parses. -/
def readyJson : Json :=
  .object [("type", .string "e2ee_ready"),
    ("capabilities", .object [("binaryCiphertext", .bool true)])]

theorem readyText_toList : (readyText true).toList =
    '\x7b' :: '"' :: ("type".toList ++ '"' :: ':' :: '"' :: ("e2ee_ready".toList ++ '"' :: ',' ::
    capabilitiesText)) := by
  unfold readyText
  rw [if_pos rfl]
  decide

theorem parse_readyText : parse (readyText true) = some readyJson := by
  refine parse_of_parseValue ?_ fun fuel => ?_
  · rw [readyText_toList, length_cons, length_cons, length_append, length_cons]; omega
  · rw [readyText_toList]
    refine parseValue_members ?_
    refine parseMembers_more (parseString_all rfl _) (parseValue_string (plain_of_all rfl) _ _) ?_
    exact parseMembers_capabilitiesText _

theorem readyJson_kind : isE2EEReadyMessage readyJson = true ∧ isE2EEHelloMessage readyJson = false ∧
    supportsBinaryCiphertext readyJson = true :=
  ⟨rfl, rfl, rfl⟩

/-! ## 2. Frames of messages -/

section

variable {lib : Packages}

/-- What a frame of a message is read as. -/
def messageReceipt (lib : Packages) (key : Bytes) (nonce : Nonce) (data : Message) : Receipt :=
  .ciphertext (encrypt lib nonce key data) (some (transported data).isBinary)

/-- Base64 text opens no JSON object. -/
theorem fromByteArray_head (laws : lib.Lawful) (bytes : Bytes) (c : Char)
    (hc : ¬IsBase64Letter c) : (lib.fromByteArray bytes).toList.head? ≠ some c := by
  intro h
  exact hc (isBase64Text_letters (laws.encode_shape bytes) c (mem_of_mem_head? h))

theorem not_letter_brace : ¬IsBase64Letter '\x7b' := by
  rintro (h | h) <;> revert h <;> decide

theorem jsTrim_fromByteArray (laws : lib.Lawful) (bytes : Bytes) :
    jsTrim (lib.fromByteArray bytes) = lib.fromByteArray bytes :=
  jsTrim_of_no_space fun c hc => (isBase64Text_letters (laws.encode_shape bytes) c hc).not_space

theorem parse_fromByteArray (laws : lib.Lawful) (bytes : Bytes) {value : Json}
    (h : parse (lib.fromByteArray bytes) = some value) : value.isObject = false := by
  by_contra hv
  obtain ⟨after, hafter⟩ := parse_object h (by simpa using hv)
  have hskip : skipSpace (lib.fromByteArray bytes).toList = (lib.fromByteArray bytes).toList := by
    cases hcs : (lib.fromByteArray bytes).toList with
    | nil => rfl
    | cons c cs =>
      have hc := isBase64Text_letters (laws.encode_shape bytes) c (by simp [hcs])
      refine skipSpace_cons ?_ cs
      simp only [isSpace, Bool.or_eq_false_iff, decide_eq_false_iff_not]
      exact ⟨⟨⟨hc.ne (by decide), hc.ne (by decide)⟩, hc.ne (by decide)⟩, hc.ne (by decide)⟩
  rw [hskip] at hafter
  exact fromByteArray_head laws bytes '\x7b' not_letter_brace (by rw [hafter]; rfl)

/-- The frame of a message is text in base64, or binary. -/
theorem transported_wireFrame (key : Bytes) (nonce : Nonce) (data : Message) :
    transported (wireFrame lib key true nonce data) =
      match data with
      | .text _ => ⟨.text (lib.fromByteArray (encrypt lib nonce key data)), false⟩
      | .bytes _ => ⟨.bytes (encrypt lib nonce key data), true⟩ := by
  cases data <;> rfl

theorem shouldIgnore_wireFrame (laws : lib.Lawful) (key : Bytes) (nonce : Nonce) (data : Message) :
    shouldIgnorePostHelloPlaintext (transported (wireFrame lib key true nonce data)) = false := by
  rw [transported_wireFrame]
  cases data with
  | bytes data => rfl
  | text data =>
    rw [shouldIgnorePostHelloPlaintext, if_neg Bool.false_ne_true]
    cases hparse : parse (lib.fromByteArray (encrypt lib nonce key (.text data))) with
    | none => simp [decodeTransportText, hparse]
    | some value =>
      have hobj := parse_fromByteArray laws _ hparse
      simp [decodeTransportText, hparse, isE2EEHelloMessage, isE2EEReadyMessage, hobj]

variable {channel : EncryptedChannel}

/-- An open channel reads the frame of a message as its ciphertext. -/
theorem handleMessage_wireFrame (laws : lib.Lawful) (hstate : channel.state = .opened)
    (hbinary : channel.binaryCiphertext = true) (key : Bytes) (nonce : Nonce) (data : Message) :
    channel.handleMessage lib (transported (wireFrame lib key true nonce data)) =
      ({ channel with receiving := channel.receiving ++ [messageReceipt lib key nonce data] } :
        EncryptedChannel).quiet := by
  have hplain : channel.readPlaintext lib (transported (wireFrame lib key true nonce data)) =
      none := by
    rw [transported_wireFrame]
    cases data with
    | bytes data => rfl
    | text data =>
      unfold EncryptedChannel.readPlaintext
      rw [if_neg Bool.false_ne_true]
      dsimp only [decodeTransportText]
      rw [jsTrim_fromByteArray laws, if_neg (fromByteArray_head laws _ _ not_letter_brace)]
  have hread : readCiphertext lib true (transported (wireFrame lib key true nonce data)) =
      messageReceipt lib key nonce data := by
    rw [transported_wireFrame]
    cases data with
    | bytes data => rfl
    | text data =>
      have := base64ToArrayBuffer_arrayBufferToBase64 laws (encrypt lib nonce key (.text data))
      rw [arrayBufferToBase64] at this
      simp only [readCiphertext, decodeTransportText, this]
      rfl
  unfold EncryptedChannel.handleMessage
  rw [hstate]
  dsimp only
  rw [hplain, hbinary, hread]
  rfl

/-- The ciphertext of a message opens to it. -/
theorem openReceipt_messageReceipt (laws : lib.Lawful) (key : Bytes) (nonce : Nonce)
    {data : Message} (h : ChannelPair.StartsPlainMessage data) :
    openReceipt lib key (messageReceipt lib key nonce data) = .ok data := by
  simp only [openReceipt, messageReceipt, decrypt_encrypt laws, bind, Except.bind]
  cases data with
  | bytes data => rfl
  | text data =>
    have hdecode : textDecodeFatal (textEncode data) = some data :=
      textDecodeFatal_textEncode h
    simp only [transported, decodePlaintext, toUint8, hdecode]
    rfl

/-! ## 3. Handshake frames -/

/-- An open client has no use for another ready. -/
theorem handleMessage_ready (hstate : channel.state = .opened) :
    channel.handleMessage lib (transported (.text (readyText true))) = channel.quiet := by
  obtain ⟨hready, hhello, -⟩ := readyJson_kind
  have hplain : channel.readPlaintext lib (transported (.text (readyText true))) =
      some (.handled channel [] []) := by
    simp only [EncryptedChannel.readPlaintext, transported, decodeTransportText,
      jsTrim_head readyText_toList (by decide), parse_readyText, hhello, hready, if_true,
      Bool.false_eq_true, if_false]
  unfold EncryptedChannel.handleMessage
  rw [hstate, hplain]
  rfl

/-- The ready opens a client that waits for it. -/
theorem handleMessage_firstReady (hstate : channel.state = .handshaking) :
    channel.handleMessage lib (transported (.text (readyText true))) =
      ({ channel with binaryCiphertext := true, state := .opened, flush := .opening } :
        EncryptedChannel).quiet := by
  obtain ⟨hready, -, hsupports⟩ := readyJson_kind
  unfold EncryptedChannel.handleMessage
  rw [hstate]
  simp only [transported, decodeTransportText, parse_readyText, hready, hsupports, if_true,
    Bool.false_eq_true, if_false]

variable {clientKeyPair daemonKeyPair : KeyPair}

/-- What the hello of a key pair needs of the packages. -/
structure HelloKey (lib : Packages) (daemonKeyPair : KeyPair) (key shared : Bytes) : Prop where
  plain : ∀ c ∈ (lib.fromByteArray key).toList, Json.Plain c
  not_blank : jsTrim (lib.fromByteArray key) ≠ ""
  derive : (do
    let clientPublicKey ← importPublicKey lib (lib.fromByteArray key)
    deriveSharedKey lib daemonKeyPair.secretKey clientPublicKey) = .ok shared

theorem HelloKey.of_lawful (laws : lib.Lawful) (keys : lib.KeysAgree clientKeyPair daemonKeyPair) :
    HelloKey lib daemonKeyPair clientKeyPair.publicKey
      (lib.boxBefore daemonKeyPair.publicKey clientKeyPair.secretKey) where
  plain := fun c hc => (isBase64Text_letters (laws.encode_shape _) c hc).plain
  not_blank := by
    rw [jsTrim_fromByteArray laws]
    intro hblank
    have hlen := laws.encode_length clientKeyPair.publicKey
    rw [hblank, clientKeyPair.length_publicKey] at hlen
    exact absurd hlen (by decide)
  derive := by
    rw [importPublicKey_encode laws clientKeyPair.length_publicKey]
    simp only [bind, Except.bind, deriveSharedKey]
    rw [if_neg (by simp [daemonKeyPair.length_secretKey]),
      if_neg (by simp [clientKeyPair.length_publicKey]), if_neg keys.daemon_result, keys.agree]
    rfl

variable {key shared : Bytes}

section

variable (h : HelloKey lib daemonKeyPair key shared)
include h

theorem isE2EEHelloMessage_hello : isE2EEHelloMessage (helloJson (lib.fromByteArray key)) = true :=
  isE2EEHelloMessage_helloJson h.not_blank

theorem shouldIgnore_hello :
    shouldIgnorePostHelloPlaintext
      (transported (.text (helloText (lib.fromByteArray key)))) = true := by
  simp only [shouldIgnorePostHelloPlaintext, transported, decodeTransportText,
    parse_helloText h.plain, Bool.false_eq_true, if_false, Option.any_some,
    isE2EEHelloMessage_hello h, Bool.true_or]

/-- The first hello sets the shared key and asks for binary ciphertext. -/
theorem handleHello_hello :
    handleHello lib daemonKeyPair (transported (.text (helloText (lib.fromByteArray key)))) =
      (.readying shared true [], .ok (readyText true)) := by
  obtain ⟨-, hkey, hcaps⟩ := helloJson_field (lib.fromByteArray key)
  have hderive := h.derive
  have hsupports : supportsBinaryCiphertext (helloJson (lib.fromByteArray key)) = true := rfl
  simp only [handleHello, transported, decodeTransportText, parse_helloText h.plain,
    Bool.false_eq_true, if_false, isE2EEHelloMessage_hello h, helloKey, hkey, Option.getD_some,
    Bool.true_eq_false, hderive, hsupports]
  rfl

/-- A repeated hello has the open daemon send its ready again. -/
theorem handleMessage_rehello (hstate : channel.state = .opened)
    (hkeys : channel.daemonKeyPair = some daemonKeyPair) (hshared : channel.sharedKey = shared)
    (hbinary : channel.binaryCiphertext = true) :
    channel.handleMessage lib (transported (.text (helloText (lib.fromByteArray key)))) =
      { channel.quiet with frames := [.text (readyText true)] } := by
  obtain ⟨-, hkey, hcaps⟩ := helloJson_field (lib.fromByteArray key)
  have hderive := h.derive
  have hplain : channel.readPlaintext lib
      (transported (.text (helloText (lib.fromByteArray key)))) =
        some (.handled channel [.text (readyText true)] []) := by
    simp only [EncryptedChannel.readPlaintext, transported, decodeTransportText,
      jsTrim_head (helloText_toList _) (by decide : isJsWhitespace '\x7b' = false),
      parse_helloText h.plain, isE2EEHelloMessage_hello h, hkeys, if_true, Bool.false_eq_true,
      if_false, EncryptedChannel.handleDaemonRehello, helloKey, hkey, Option.getD_some, hderive,
      hshared, ne_eq, not_true_eq_false, hbinary]
  unfold EncryptedChannel.handleMessage
  rw [hstate, hplain]
  rfl

end

end

end Frogg.Relay
