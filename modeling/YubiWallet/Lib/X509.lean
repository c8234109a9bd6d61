import YubiWallet.Lib.Ber

/-! X.509 certificates and their DER encoding. Values that a certificate only carries, such
as the strings in names, are elements with any tag. -/
namespace X509
open Ber (Element encodeLength encodeElement)

/-- An element with its tag and the shortest length. -/
def element (tag : UInt8) (content : List UInt8) : List UInt8 := encodeElement (tag, content)

def sequence (content : List UInt8) : List UInt8 := element 0x30 content

def optional {α : Type} (encode : α → List UInt8) : Option α → List UInt8
  | some a => encode a
  | none => []

structure BitString where
  unusedBits : UInt8
  bytes : List UInt8

def BitString.content (b : BitString) : List UInt8 := b.unusedBits :: b.bytes

/-- The object identifier is kept as its encoded arcs. -/
structure AlgorithmIdentifier where
  algorithm : List UInt8
  parameters : Option Element

def AlgorithmIdentifier.encode (a : AlgorithmIdentifier) : List UInt8 :=
  sequence (element 0x06 a.algorithm ++ optional encodeElement a.parameters)

structure AttributeTypeAndValue where
  type : List UInt8
  value : Element

def AttributeTypeAndValue.encode (a : AttributeTypeAndValue) : List UInt8 :=
  sequence (element 0x06 a.type ++ encodeElement a.value)

/-- A sequence of sets of attributes. -/
abbrev Name := List (List AttributeTypeAndValue)

def Name.encode (n : Name) : List UInt8 :=
  sequence (n.flatMap fun rdn => element 0x31 (rdn.flatMap AttributeTypeAndValue.encode))

inductive Time where
  | utcTime (text : List UInt8)
  | generalizedTime (text : List UInt8)

def Time.encode : Time → List UInt8
  | .utcTime text => element 0x17 text
  | .generalizedTime text => element 0x18 text

structure Validity where
  notBefore : Time
  notAfter : Time

def Validity.encode (v : Validity) : List UInt8 :=
  sequence (v.notBefore.encode ++ v.notAfter.encode)

structure SubjectPublicKeyInfo where
  algorithm : AlgorithmIdentifier
  subjectPublicKey : BitString

def SubjectPublicKeyInfo.encode (s : SubjectPublicKeyInfo) : List UInt8 :=
  sequence (s.algorithm.encode ++ element 0x03 s.subjectPublicKey.content)

structure Extension where
  extnID : List UInt8
  critical : Bool
  extnValue : List UInt8

/-- The default of `critical` is not encoded. -/
def Extension.encode (e : Extension) : List UInt8 :=
  sequence (element 0x06 e.extnID ++ (if e.critical then element 0x01 [0xFF] else []) ++
    element 0x04 e.extnValue)

/-- Without `version` the certificate is one of version 1. -/
structure TbsCertificate where
  version : Option UInt8
  serialNumber : List UInt8
  signature : AlgorithmIdentifier
  issuer : Name
  validity : Validity
  subject : Name
  subjectPublicKeyInfo : SubjectPublicKeyInfo
  issuerUniqueID : Option BitString
  subjectUniqueID : Option BitString
  extensions : Option (List Extension)

namespace TbsCertificate

/-- The fields in front of the key. -/
def front (t : TbsCertificate) : List UInt8 :=
  optional (fun v => element 0xA0 (element 0x02 [v])) t.version ++
    element 0x02 t.serialNumber ++ t.signature.encode ++ t.issuer.encode ++
    t.validity.encode ++ t.subject.encode

/-- The fields behind the key. -/
def back (t : TbsCertificate) : List UInt8 :=
  optional (fun b => element 0x81 b.content) t.issuerUniqueID ++
    optional (fun b => element 0x82 b.content) t.subjectUniqueID ++
    optional (fun es => element 0xA3 (sequence (es.flatMap Extension.encode))) t.extensions

def encode (t : TbsCertificate) : List UInt8 :=
  sequence (t.front ++ t.subjectPublicKeyInfo.encode ++ t.back)

end TbsCertificate

structure Certificate where
  tbsCertificate : TbsCertificate
  signatureAlgorithm : AlgorithmIdentifier
  signatureValue : BitString

namespace Certificate

def encode (c : Certificate) : List UInt8 :=
  sequence (c.tbsCertificate.encode ++ c.signatureAlgorithm.encode ++
    element 0x03 c.signatureValue.content)

def spki (c : Certificate) : SubjectPublicKeyInfo := c.tbsCertificate.subjectPublicKeyInfo

/-- What a certificate holds in front of its key: two headers and the fields. -/
def beforeKey (c : Certificate) : List UInt8 :=
  let tbs := c.tbsCertificate
  let content := tbs.encode ++ c.signatureAlgorithm.encode ++ element 0x03 c.signatureValue.content
  0x30 :: encodeLength content.length ++
    (0x30 :: encodeLength (tbs.front ++ c.spki.encode ++ tbs.back).length) ++ tbs.front

def afterKey (c : Certificate) : List UInt8 :=
  c.tbsCertificate.back ++ c.signatureAlgorithm.encode ++ element 0x03 c.signatureValue.content

/-- The key stands between the two. -/
theorem encode_eq (c : Certificate) : c.encode = c.beforeKey ++ c.spki.encode ++ c.afterKey := by
  simp [encode, beforeKey, afterKey, spki, TbsCertificate.encode, sequence, element,
    Ber.encodeElement, List.append_assoc]

end Certificate

/-- An element with less than 128 bytes has one byte for its length. -/
theorem element_short (tag : UInt8) {content : List UInt8} (h : content.length < 0x80) :
    element tag content = tag :: UInt8.ofNat content.length :: content := by
  rw [element, Ber.encodeElement, Ber.encodeLength, if_pos h]
  rfl

end X509
