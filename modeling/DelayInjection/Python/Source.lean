import DelayInjection.Text.Utf8

/-! Python source as characters: line ends, the byte order mark, and the encoding that one of the first two lines may declare. -/

namespace DelayInjection.Python

open Text.Utf8 (Bytes)

/-- All line ends become newlines, and the last line gets one. -/
def unifyNewlines : Bytes → Bytes
  | [] => []
  | 13 :: 10 :: rest => 10 :: unifyNewlines rest
  | 13 :: rest => 10 :: unifyNewlines rest
  | b :: rest => b :: unifyNewlines rest

def endLine (bytes : Bytes) : Bytes :=
  if bytes.getLast?.any (· != 10) then bytes ++ [10] else bytes

def isLineGap (b : UInt8) : Bool := b == 32 || b == 9 || b == 12

def ofAscii (text : String) : Bytes := text.toList.map fun c => UInt8.ofNat c.toNat

def isEncodingByte (b : UInt8) : Bool :=
  (48 ≤ b && b ≤ 57) || (65 ≤ b && b ≤ 90) || (97 ≤ b && b ≤ 122) || b == 45 || b == 95 || b == 46

/-- The encoding that a comment declares: a word behind `coding` and a colon or an equals sign. -/
def declaredIn : Bytes → Option Bytes
  | [] => none
  | b :: rest =>
    let behind := rest.drop 5
    let found := if (ofAscii "coding").isPrefixOf (b :: rest) &&
        (behind.head? == some 58 || behind.head? == some 61)
      then ((behind.drop 1).dropWhile fun c => c == 32 || c == 9).takeWhile isEncodingByte
      else []
    if found.isEmpty then declaredIn rest else some found

/-- What the line says of the encoding. Only a line with nothing but a comment may declare one. -/
def declared? (line : Bytes) : Option Bytes :=
  let comment := line.dropWhile isLineGap
  if comment.head? == some 35 then declaredIn comment else none

/-- The line holds nothing, or a comment. -/
def mayPrecede (line : Bytes) : Bool :=
  match (line.dropWhile isLineGap).head? with
  | none => true
  | some b => b == 35

inductive Encoding where
  | utf8
  | latin1
  | ascii
deriving DecidableEq, Repr

def lowerByte (b : UInt8) : Char :=
  let c := Char.ofNat b.toNat
  if c == '_' then '-' else c.toLower

def startsAs (name : String) (family : String) : Bool :=
  name = family || (family ++ "-").toList.isPrefixOf name.toList

/-- Names of encodings, without hyphens, dots and underscores. -/
def latin1Names : List String := [
  "latin1", "latin", "l1", "iso88591", "8859", "cp819", "isoir100", "ibm819", "iso885911987"]

def asciiNames : List String := [
  "ascii", "usascii", "us", "646", "ansix341968", "ansix341986", "cp367", "csascii", "ibm367",
  "iso646us", "iso646irv1991", "isoir6"]

def utf8Names : List String := ["utf8", "u8", "utf", "utf8ucs2", "utf8ucs4", "cp65001", "utf8sig"]

/-- Names of further encodings that write the characters of ASCII as ASCII does. Their other
characters are not known here. -/
def asciiSupersetNames : List String := [
  "big5", "big5hkscs", "cp437", "cp737", "cp775", "cp850", "cp852", "cp855", "cp857", "cp858",
  "cp860", "cp861", "cp862", "cp863", "cp865", "cp866", "cp869", "cp874", "cp932", "cp936", "cp949",
  "cp950", "cp1006", "cp1250", "cp1251", "cp1252", "cp1253", "cp1254", "cp1255", "cp1256", "cp1257",
  "cp1258", "windows1250", "windows1251", "windows1252", "windows1253", "windows1254",
  "windows1255", "windows1256", "windows1257", "windows1258", "1250", "1251", "1252", "1253",
  "1254", "1255", "1256", "1257", "1258", "437", "850", "852", "866", "932", "936", "949", "950",
  "euccn", "eucjp", "eucjis2004", "eucjisx0213", "euckr", "gb18030", "gb2312", "gbk", "hz",
  "iso2022jp", "iso2022kr", "iso88592", "iso88593", "iso88594", "iso88595", "iso88596", "iso88597",
  "iso88598", "iso88599", "iso885910", "iso885911", "iso885913", "iso885914", "iso885915",
  "iso885916", "johab", "koi8r", "koi8t", "koi8u", "korean", "kz1048", "latin2", "latin3", "latin4",
  "latin5", "latin6", "latin7", "latin8", "latin9", "latin10", "maccyrillic", "macgreek",
  "macintosh", "maclatin2", "macroman", "macturkish", "ptcp154", "shiftjis", "shiftjis2004",
  "shiftjisx0213", "sjis", "tis620", "ujis", "utf7"]

/-- The encoding of a name. -/
def encodingNamed (name : Bytes) : Option Encoding :=
  let lower := name.map lowerByte
  let short := String.ofList (lower.take 12)
  let bare := String.ofList (lower.filter fun c => c != '-' && c != '.')
  if startsAs short "utf-8" then some .utf8
  else if ["latin-1", "iso-8859-1", "iso-latin-1"].any (startsAs short) then some .latin1
  else if utf8Names.contains bare then some .utf8
  else if latin1Names.contains bare then some .latin1
  else if asciiNames.contains bare || asciiSupersetNames.contains bare then some .ascii
  else none

def decodeAs (encoding : Encoding) (bytes : Bytes) : Option (List Char) :=
  match encoding with
  | .utf8 => Text.Utf8.decode? bytes
  | .latin1 => some (bytes.map fun b => Char.ofNat b.toNat)
  | .ascii => if bytes.all (· < 128) then some (bytes.map fun b => Char.ofNat b.toNat) else none

/-- The first two lines, if they are ended. -/
def firstLine (bytes : Bytes) : Bytes × Bytes :=
  let line := bytes.takeWhile (· != 10)
  (line, bytes.drop (line.length + 1))

def declaration? (bytes : Bytes) : Option Bytes :=
  let (first, rest) := firstLine bytes
  match declared? first with
  | some name => some name
  | none =>
    if mayPrecede first && rest.contains 10 then declared? (firstLine rest).1 else none

/-- The characters of a source. A byte order mark and a declaration must agree. -/
def characters? (source : Bytes) : Option (List Char) :=
  let bytes := endLine (unifyNewlines source)
  let marked := Text.Utf8.byteOrderMark.isPrefixOf bytes
  let bytes := if marked then bytes.drop 3 else bytes
  match declaration? bytes with
  | none => decodeAs .utf8 bytes
  | some name =>
    match encodingNamed name with
    | none => none
    | some encoding =>
      if marked && !startsAs (String.ofList ((name.map lowerByte).take 12)) "utf-8" then none
      else decodeAs encoding bytes

end DelayInjection.Python
