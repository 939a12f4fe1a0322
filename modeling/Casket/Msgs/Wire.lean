import Casket.Basic
import Casket.Lib.Words

/-! The two messages of the unix socket, and what the code relies on `bincode` for.
The format itself lives in that crate: here it is a parameter with its documented laws,
and the crate's default fixed-width encoding shows that the laws can be met.
-/

namespace Casket

open Lib

/-- The server hands a client connection over: its token and the server's descriptor. -/
structure Request where
  token : Token
  fd : RawFd
  deriving DecidableEq, Repr

/-- A worker hands a token back, to be kept alive or to be closed. -/
structure Response where
  token : Token
  fd : RawFd
  keepAlive : Bool
  error : Option String
  deriving DecidableEq, Repr

/-- The test of the server's receiving loop: `msg.keep_alive && msg.error.is_none()`. -/
def Response.kept (response : Response) : Bool :=
  response.keepAlive && response.error.isNone

/-- `bincode::serialize` and `bincode::deserialize` at the two message types.
Requests have a fixed size; a response round-trips while it is shorter than 2^32 bytes.
-/
structure Bincode where
  serializeRequest : Request → Bytes
  deserializeRequest : Bytes → Option Request
  serializeResponse : Response → Bytes
  deserializeResponse : Bytes → Option Response
  length_serializeRequest : ∀ request, (serializeRequest request).length = 12
  deserialize_serializeRequest
    : ∀ request, deserializeRequest (serializeRequest request) = some request
  serializeResponse_pos : ∀ response, 0 < (serializeResponse response).length
  deserialize_serializeResponse
    : ∀ response,
        (serializeResponse response).length < 2 ^ 32
        → deserializeResponse (serializeResponse response) = some response

/-- Serialized requests all fit a one-byte size. -/
theorem Bincode.request_fits (bincode : Bincode) (request : Request)
    : bytePrefixed.Fits (bincode.serializeRequest request) := by
  have size := bincode.length_serializeRequest request
  constructor
  · rw [size]; decide
  · rw [size]; decide

/-- A serialized response below 2^32 bytes fits a four-byte size. -/
theorem Bincode.response_fits (bincode : Bincode) {response : Response}
    (short : (bincode.serializeResponse response).length < 2 ^ 32)
    : wordPrefixed.Fits (bincode.serializeResponse response) :=
  ⟨short, Nat.lt_add_of_pos_right (bincode.serializeResponse_pos response)⟩

/-- Decoding the serialized forms of some requests gives them back, by induction. -/
theorem Bincode.mapM_deserializeRequest (bincode : Bincode) (requests : List Request)
    : (requests.map bincode.serializeRequest).mapM bincode.deserializeRequest
      = some requests := by
  induction requests with
  | nil => rfl
  | cons request rest ih =>
      simp [List.mapM_cons, ih, bincode.deserialize_serializeRequest]

/-- Decoding the serialized forms of some short responses gives them back, likewise. -/
theorem Bincode.mapM_deserializeResponse (bincode : Bincode) {responses : List Response}
    (short
      : ∀ response ∈ responses, (bincode.serializeResponse response).length < 2 ^ 32)
    : (responses.map bincode.serializeResponse).mapM bincode.deserializeResponse
      = some responses := by
  induction responses with
  | nil => rfl
  | cons response rest ih =>
      have head := bincode.deserialize_serializeResponse response
        (short response List.mem_cons_self)
      have tail := ih (fun other member => short other (List.mem_cons_of_mem _ member))
      simp [List.mapM_cons, head, tail]

-----------------------------------------------------------------------------------------
-- bincode's default encoding: little-endian fixed-width integers, trailing bytes allowed
-----------------------------------------------------------------------------------------

namespace Fixint

def u64 (value : UInt64) : Bytes := leBytes 8 value.toNat

def i32 (value : Int32) : Bytes := leBytes 4 value.toUInt32.toNat

def readU64 (bytes : Bytes) : UInt64 := UInt64.ofNat (leValue (bytes.take 8))

def readI32 (bytes : Bytes) : Int32 := (UInt32.ofNat (leValue (bytes.take 4))).toInt32

private theorem take_word {word rest : Bytes} {width : Nat} (size : word.length = width)
    : (word ++ rest).take width = word := by
  rw [← size, List.take_left]

private theorem drop_word {word rest : Bytes} {width : Nat} (size : word.length = width)
    : (word ++ rest).drop width = rest := by
  rw [← size, List.drop_left]

theorem readU64_u64 (value : UInt64) (rest : Bytes)
    : readU64 (u64 value ++ rest) = value := by
  have small : value.toNat < 256 ^ 8 := value.toNat_lt
  rw [readU64, take_word (by simp [u64]), u64, leValue_leBytes_of_lt small,
    UInt64.ofNat_toNat]

theorem readI32_i32 (value : Int32) (rest : Bytes)
    : readI32 (i32 value ++ rest) = value := by
  have small : value.toUInt32.toNat < 256 ^ 4 := value.toUInt32.toNat_lt
  rw [readI32, take_word (by simp [i32]), i32, leValue_leBytes_of_lt small,
    UInt32.ofNat_toNat]
  exact Int32.toInt32_toUInt32 value

def serializeRequest (request : Request) : Bytes := u64 request.token ++ i32 request.fd

def deserializeRequest (bytes : Bytes) : Option Request :=
  if 12 ≤ bytes.length then some ⟨readU64 bytes, readI32 (bytes.drop 8)⟩ else none

/-- An `Option<String>` is a tag byte, then the text's length and its UTF-8 bytes. -/
def serializeText : Option String → Bytes
  | none => [0]
  | some text => 1 :: (leBytes 8 text.toUTF8.data.size ++ text.toUTF8.data.toList)

def deserializeText : Bytes → Option (Option String)
  | 0 :: _ => some none
  | 1 :: bytes =>
      let size := leValue (bytes.take 8)
      if size ≤ (bytes.drop 8).length then
        (String.fromUTF8? ⟨((bytes.drop 8).take size).toArray⟩).map some
      else
        none
  | _ => none

def serializeResponse (response : Response) : Bytes :=
  u64 response.token
  ++ (i32 response.fd
      ++ (if response.keepAlive then 1 else 0) :: serializeText response.error)

def deserializeResponse (bytes : Bytes) : Option Response :=
  match (bytes.drop 8).drop 4 with
  | 0 :: text =>
      (deserializeText text).map (⟨readU64 bytes, readI32 (bytes.drop 8), false, ·⟩)
  | 1 :: text =>
      (deserializeText text).map (⟨readU64 bytes, readI32 (bytes.drop 8), true, ·⟩)
  | _ => none

theorem deserialize_serializeRequest (request : Request)
    : deserializeRequest (serializeRequest request) = some request := by
  have size : 12 ≤ (serializeRequest request).length := by
    simp [serializeRequest, u64, i32]
  have token := readU64_u64 request.token (i32 request.fd)
  have fd := readI32_i32 request.fd []
  rw [List.append_nil] at fd
  have skip : (serializeRequest request).drop 8 = i32 request.fd :=
    drop_word (by simp [u64])
  rw [deserializeRequest, if_pos size, skip, fd, serializeRequest, token]

/-- Texts below 2^64 bytes round-trip: the length is faithful and the bytes are UTF-8. -/
theorem deserialize_serializeText {text : Option String}
    (short : (serializeText text).length < 2 ^ 32)
    : deserializeText (serializeText text) = some text := by
  cases text with
  | none => rfl
  | some text =>
      simp only [serializeText, List.length_cons, List.length_append, length_leBytes,
        Array.length_toList] at short
      have length : leValue (leBytes 8 text.toUTF8.data.size) = text.toUTF8.data.size :=
        leValue_leBytes_of_lt (by omega)
      have utf8 : String.fromUTF8? text.toUTF8 = some text := dif_pos text.isValidUTF8
      simp only [serializeText, deserializeText, take_word (length_leBytes 8 _),
        drop_word (length_leBytes 8 _), length, Array.length_toList, Nat.le_refl, if_true,
        List.take_of_length_le, Array.toArray_toList]
      rw [utf8, Option.map_some]

theorem deserialize_serializeResponse {response : Response}
    (short : (serializeResponse response).length < 2 ^ 32)
    : deserializeResponse (serializeResponse response) = some response := by
  obtain ⟨token, fd, keepAlive, error⟩ := response
  simp only [serializeResponse, List.length_append, List.length_cons] at short
  have text := @deserialize_serializeText error (by omega)
  have first := readU64_u64 token
    (i32 fd ++ (if keepAlive then 1 else 0) :: serializeText error)
  have second := readI32_i32 fd ((if keepAlive then 1 else 0) :: serializeText error)
  simp only [deserializeResponse, serializeResponse, drop_word (show (u64 token).length = 8
    by simp [u64]), drop_word (show (i32 fd).length = 4 by simp [i32]), first, second]
  cases keepAlive <;> simp [text]

end Fixint

/-- The encoding of `bincode`'s top-level functions meets every law the code relies on. -/
def Bincode.fixint : Bincode where
  serializeRequest := Fixint.serializeRequest
  deserializeRequest := Fixint.deserializeRequest
  serializeResponse := Fixint.serializeResponse
  deserializeResponse := Fixint.deserializeResponse
  length_serializeRequest request := by
    simp [Fixint.serializeRequest, Fixint.u64, Fixint.i32]
  deserialize_serializeRequest := Fixint.deserialize_serializeRequest
  serializeResponse_pos response := by simp [Fixint.serializeResponse]
  deserialize_serializeResponse _ := Fixint.deserialize_serializeResponse

end Casket
