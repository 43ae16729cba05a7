import ReactiveTemplate.Text.Identifier

/-!
# Letters, digits and word characters

The Unicode classes behind "alphabetic", "alphanumeric", "decimal digit" and "word character".
The alphabetic characters are described by their difference from the identifier starts.
-/

namespace ReactiveTemplate
namespace Text

/-- The alphabetic characters that cannot begin an identifier: vowel signs and other letter-like marks. -/
def alphabeticMark : CharSet :=
  [
    ⟨0x345, 0x345, 1⟩, ⟨0x363, 0x36f, 1⟩, ⟨0x5b0, 0x5bd, 1⟩, ⟨0x5bf, 0x5bf, 1⟩, ⟨0x5c1, 0x5c2, 1⟩,
    ⟨0x5c4, 0x5c5, 1⟩, ⟨0x5c7, 0x5c7, 1⟩, ⟨0x610, 0x61a, 1⟩, ⟨0x64b, 0x657, 1⟩, ⟨0x659, 0x65f, 1⟩,
    ⟨0x670, 0x670, 1⟩, ⟨0x6d6, 0x6dc, 1⟩, ⟨0x6e1, 0x6e4, 1⟩, ⟨0x6e7, 0x6e8, 1⟩, ⟨0x6ed, 0x6ed, 1⟩,
    ⟨0x711, 0x711, 1⟩, ⟨0x730, 0x73f, 1⟩, ⟨0x7a6, 0x7b0, 1⟩, ⟨0x816, 0x817, 1⟩, ⟨0x81b, 0x823, 1⟩,
    ⟨0x825, 0x827, 1⟩, ⟨0x829, 0x82c, 1⟩, ⟨0x897, 0x897, 1⟩, ⟨0x8d4, 0x8df, 1⟩, ⟨0x8e3, 0x8e9, 1⟩,
    ⟨0x8f0, 0x903, 1⟩, ⟨0x93a, 0x93b, 1⟩, ⟨0x93e, 0x94c, 1⟩, ⟨0x94e, 0x94f, 1⟩, ⟨0x955, 0x957, 1⟩,
    ⟨0x962, 0x963, 1⟩, ⟨0x981, 0x983, 1⟩, ⟨0x9be, 0x9c4, 1⟩, ⟨0x9c7, 0x9c8, 1⟩, ⟨0x9cb, 0x9cc, 1⟩,
    ⟨0x9d7, 0x9d7, 1⟩, ⟨0x9e2, 0x9e3, 1⟩, ⟨0xa01, 0xa03, 1⟩, ⟨0xa3e, 0xa42, 1⟩, ⟨0xa47, 0xa48, 1⟩,
    ⟨0xa4b, 0xa4c, 1⟩, ⟨0xa51, 0xa51, 1⟩, ⟨0xa70, 0xa71, 1⟩, ⟨0xa75, 0xa75, 1⟩, ⟨0xa81, 0xa83, 1⟩,
    ⟨0xabe, 0xac5, 1⟩, ⟨0xac7, 0xac9, 1⟩, ⟨0xacb, 0xacc, 1⟩, ⟨0xae2, 0xae3, 1⟩, ⟨0xafa, 0xafc, 1⟩,
    ⟨0xb01, 0xb03, 1⟩, ⟨0xb3e, 0xb44, 1⟩, ⟨0xb47, 0xb48, 1⟩, ⟨0xb4b, 0xb4c, 1⟩, ⟨0xb56, 0xb57, 1⟩,
    ⟨0xb62, 0xb63, 1⟩, ⟨0xb82, 0xb82, 1⟩, ⟨0xbbe, 0xbc2, 1⟩, ⟨0xbc6, 0xbc8, 1⟩, ⟨0xbca, 0xbcc, 1⟩,
    ⟨0xbd7, 0xbd7, 1⟩, ⟨0xc00, 0xc04, 1⟩, ⟨0xc3e, 0xc44, 1⟩, ⟨0xc46, 0xc48, 1⟩, ⟨0xc4a, 0xc4c, 1⟩,
    ⟨0xc55, 0xc56, 1⟩, ⟨0xc62, 0xc63, 1⟩, ⟨0xc81, 0xc83, 1⟩, ⟨0xcbe, 0xcc4, 1⟩, ⟨0xcc6, 0xcc8, 1⟩,
    ⟨0xcca, 0xccc, 1⟩, ⟨0xcd5, 0xcd6, 1⟩, ⟨0xce2, 0xce3, 1⟩, ⟨0xcf3, 0xcf3, 1⟩, ⟨0xd00, 0xd03, 1⟩,
    ⟨0xd3e, 0xd44, 1⟩, ⟨0xd46, 0xd48, 1⟩, ⟨0xd4a, 0xd4c, 1⟩, ⟨0xd57, 0xd57, 1⟩, ⟨0xd62, 0xd63, 1⟩,
    ⟨0xd81, 0xd83, 1⟩, ⟨0xdcf, 0xdd4, 1⟩, ⟨0xdd6, 0xdd6, 1⟩, ⟨0xdd8, 0xddf, 1⟩, ⟨0xdf2, 0xdf3, 1⟩,
    ⟨0xe31, 0xe31, 1⟩, ⟨0xe34, 0xe3a, 1⟩, ⟨0xe4d, 0xe4d, 1⟩, ⟨0xeb1, 0xeb1, 1⟩, ⟨0xeb4, 0xeb9, 1⟩,
    ⟨0xebb, 0xebc, 1⟩, ⟨0xecd, 0xecd, 1⟩, ⟨0xf71, 0xf83, 1⟩, ⟨0xf8d, 0xf97, 1⟩, ⟨0xf99, 0xfbc, 1⟩,
    ⟨0x102b, 0x1036, 1⟩, ⟨0x1038, 0x1038, 1⟩, ⟨0x103b, 0x103e, 1⟩, ⟨0x1056, 0x1059, 1⟩,
    ⟨0x105e, 0x1060, 1⟩, ⟨0x1062, 0x1064, 1⟩, ⟨0x1067, 0x106d, 1⟩, ⟨0x1071, 0x1074, 1⟩,
    ⟨0x1082, 0x108d, 1⟩, ⟨0x108f, 0x108f, 1⟩, ⟨0x109a, 0x109d, 1⟩, ⟨0x1712, 0x1713, 1⟩,
    ⟨0x1732, 0x1733, 1⟩, ⟨0x1752, 0x1753, 1⟩, ⟨0x1772, 0x1773, 1⟩, ⟨0x17b6, 0x17c8, 1⟩,
    ⟨0x18a9, 0x18a9, 1⟩, ⟨0x1920, 0x192b, 1⟩, ⟨0x1930, 0x1938, 1⟩, ⟨0x1a17, 0x1a1b, 1⟩,
    ⟨0x1a55, 0x1a5e, 1⟩, ⟨0x1a61, 0x1a74, 1⟩, ⟨0x1abf, 0x1ac0, 1⟩, ⟨0x1acc, 0x1ace, 1⟩,
    ⟨0x1b00, 0x1b04, 1⟩, ⟨0x1b35, 0x1b43, 1⟩, ⟨0x1b80, 0x1b82, 1⟩, ⟨0x1ba1, 0x1ba9, 1⟩,
    ⟨0x1bac, 0x1bad, 1⟩, ⟨0x1be7, 0x1bf1, 1⟩, ⟨0x1c24, 0x1c36, 1⟩, ⟨0x1dd3, 0x1df4, 1⟩,
    ⟨0x24b6, 0x24e9, 1⟩, ⟨0x2de0, 0x2dff, 1⟩, ⟨0x2e2f, 0x2e2f, 1⟩, ⟨0xa674, 0xa67b, 1⟩,
    ⟨0xa69e, 0xa69f, 1⟩, ⟨0xa802, 0xa802, 1⟩, ⟨0xa80b, 0xa80b, 1⟩, ⟨0xa823, 0xa827, 1⟩,
    ⟨0xa880, 0xa881, 1⟩, ⟨0xa8b4, 0xa8c3, 1⟩, ⟨0xa8c5, 0xa8c5, 1⟩, ⟨0xa8ff, 0xa8ff, 1⟩,
    ⟨0xa926, 0xa92a, 1⟩, ⟨0xa947, 0xa952, 1⟩, ⟨0xa980, 0xa983, 1⟩, ⟨0xa9b4, 0xa9bf, 1⟩,
    ⟨0xa9e5, 0xa9e5, 1⟩, ⟨0xaa29, 0xaa36, 1⟩, ⟨0xaa43, 0xaa43, 1⟩, ⟨0xaa4c, 0xaa4d, 1⟩,
    ⟨0xaa7b, 0xaa7d, 1⟩, ⟨0xaab0, 0xaab0, 1⟩, ⟨0xaab2, 0xaab4, 1⟩, ⟨0xaab7, 0xaab8, 1⟩,
    ⟨0xaabe, 0xaabe, 1⟩, ⟨0xaaeb, 0xaaef, 1⟩, ⟨0xaaf5, 0xaaf5, 1⟩, ⟨0xabe3, 0xabea, 1⟩,
    ⟨0xfb1e, 0xfb1e, 1⟩, ⟨0x10376, 0x1037a, 1⟩, ⟨0x10a01, 0x10a03, 1⟩, ⟨0x10a05, 0x10a06, 1⟩,
    ⟨0x10a0c, 0x10a0f, 1⟩, ⟨0x10d24, 0x10d27, 1⟩, ⟨0x10d69, 0x10d69, 1⟩, ⟨0x10eab, 0x10eac, 1⟩,
    ⟨0x10efa, 0x10efc, 1⟩, ⟨0x11000, 0x11002, 1⟩, ⟨0x11038, 0x11045, 1⟩, ⟨0x11073, 0x11074, 1⟩,
    ⟨0x11080, 0x11082, 1⟩, ⟨0x110b0, 0x110b8, 1⟩, ⟨0x110c2, 0x110c2, 1⟩, ⟨0x11100, 0x11102, 1⟩,
    ⟨0x11127, 0x11132, 1⟩, ⟨0x11145, 0x11146, 1⟩, ⟨0x11180, 0x11182, 1⟩, ⟨0x111b3, 0x111bf, 1⟩,
    ⟨0x111ce, 0x111cf, 1⟩, ⟨0x1122c, 0x11234, 1⟩, ⟨0x11237, 0x11237, 1⟩, ⟨0x1123e, 0x1123e, 1⟩,
    ⟨0x11241, 0x11241, 1⟩, ⟨0x112df, 0x112e8, 1⟩, ⟨0x11300, 0x11303, 1⟩, ⟨0x1133e, 0x11344, 1⟩,
    ⟨0x11347, 0x11348, 1⟩, ⟨0x1134b, 0x1134c, 1⟩, ⟨0x11357, 0x11357, 1⟩, ⟨0x11362, 0x11363, 1⟩,
    ⟨0x113b8, 0x113c0, 1⟩, ⟨0x113c2, 0x113c2, 1⟩, ⟨0x113c5, 0x113c5, 1⟩, ⟨0x113c7, 0x113ca, 1⟩,
    ⟨0x113cc, 0x113cd, 1⟩, ⟨0x11435, 0x11441, 1⟩, ⟨0x11443, 0x11445, 1⟩, ⟨0x114b0, 0x114c1, 1⟩,
    ⟨0x115af, 0x115b5, 1⟩, ⟨0x115b8, 0x115be, 1⟩, ⟨0x115dc, 0x115dd, 1⟩, ⟨0x11630, 0x1163e, 1⟩,
    ⟨0x11640, 0x11640, 1⟩, ⟨0x116ab, 0x116b5, 1⟩, ⟨0x1171d, 0x1172a, 1⟩, ⟨0x1182c, 0x11838, 1⟩,
    ⟨0x11930, 0x11935, 1⟩, ⟨0x11937, 0x11938, 1⟩, ⟨0x1193b, 0x1193c, 1⟩, ⟨0x11940, 0x11942, 2⟩,
    ⟨0x119d1, 0x119d7, 1⟩, ⟨0x119da, 0x119df, 1⟩, ⟨0x119e4, 0x119e4, 1⟩, ⟨0x11a01, 0x11a0a, 1⟩,
    ⟨0x11a35, 0x11a39, 1⟩, ⟨0x11a3b, 0x11a3e, 1⟩, ⟨0x11a51, 0x11a5b, 1⟩, ⟨0x11a8a, 0x11a97, 1⟩,
    ⟨0x11b60, 0x11b67, 1⟩, ⟨0x11c2f, 0x11c36, 1⟩, ⟨0x11c38, 0x11c3e, 1⟩, ⟨0x11c92, 0x11ca7, 1⟩,
    ⟨0x11ca9, 0x11cb6, 1⟩, ⟨0x11d31, 0x11d36, 1⟩, ⟨0x11d3a, 0x11d3a, 1⟩, ⟨0x11d3c, 0x11d3d, 1⟩,
    ⟨0x11d3f, 0x11d41, 1⟩, ⟨0x11d43, 0x11d43, 1⟩, ⟨0x11d47, 0x11d47, 1⟩, ⟨0x11d8a, 0x11d8e, 1⟩,
    ⟨0x11d90, 0x11d91, 1⟩, ⟨0x11d93, 0x11d96, 1⟩, ⟨0x11ef3, 0x11ef6, 1⟩, ⟨0x11f00, 0x11f01, 1⟩,
    ⟨0x11f03, 0x11f03, 1⟩, ⟨0x11f34, 0x11f3a, 1⟩, ⟨0x11f3e, 0x11f40, 1⟩, ⟨0x1611e, 0x1612e, 1⟩,
    ⟨0x16f4f, 0x16f4f, 1⟩, ⟨0x16f51, 0x16f87, 1⟩, ⟨0x16f8f, 0x16f92, 1⟩, ⟨0x16ff0, 0x16ff1, 1⟩,
    ⟨0x1bc9e, 0x1bc9e, 1⟩, ⟨0x1e000, 0x1e006, 1⟩, ⟨0x1e008, 0x1e018, 1⟩, ⟨0x1e01b, 0x1e021, 1⟩,
    ⟨0x1e023, 0x1e024, 1⟩, ⟨0x1e026, 0x1e02a, 1⟩, ⟨0x1e08f, 0x1e08f, 1⟩, ⟨0x1e6e3, 0x1e6e3, 1⟩,
    ⟨0x1e6e6, 0x1e6e6, 1⟩, ⟨0x1e6ee, 0x1e6ef, 1⟩, ⟨0x1e6f5, 0x1e6f5, 1⟩, ⟨0x1e947, 0x1e947, 1⟩,
    ⟨0x1f130, 0x1f149, 1⟩, ⟨0x1f150, 0x1f169, 1⟩, ⟨0x1f170, 0x1f189, 1⟩]

/-- The characters that begin an identifier without being alphabetic. -/
def identifierSymbol : CharSet :=
  [
    ⟨0x2118, 0x2118, 1⟩, ⟨0x212e, 0x212e, 1⟩, ⟨0x309b, 0x309c, 1⟩]

/-- The decimal digits beyond ASCII. -/
def decimalDigitBeyondAscii : CharSet :=
  [
    ⟨0x660, 0x669, 1⟩, ⟨0x6f0, 0x6f9, 1⟩, ⟨0x7c0, 0x7c9, 1⟩, ⟨0x966, 0x96f, 1⟩, ⟨0x9e6, 0x9ef, 1⟩,
    ⟨0xa66, 0xa6f, 1⟩, ⟨0xae6, 0xaef, 1⟩, ⟨0xb66, 0xb6f, 1⟩, ⟨0xbe6, 0xbef, 1⟩, ⟨0xc66, 0xc6f, 1⟩,
    ⟨0xce6, 0xcef, 1⟩, ⟨0xd66, 0xd6f, 1⟩, ⟨0xde6, 0xdef, 1⟩, ⟨0xe50, 0xe59, 1⟩, ⟨0xed0, 0xed9, 1⟩,
    ⟨0xf20, 0xf29, 1⟩, ⟨0x1040, 0x1049, 1⟩, ⟨0x1090, 0x1099, 1⟩, ⟨0x17e0, 0x17e9, 1⟩,
    ⟨0x1810, 0x1819, 1⟩, ⟨0x1946, 0x194f, 1⟩, ⟨0x19d0, 0x19d9, 1⟩, ⟨0x1a80, 0x1a89, 1⟩,
    ⟨0x1a90, 0x1a99, 1⟩, ⟨0x1b50, 0x1b59, 1⟩, ⟨0x1bb0, 0x1bb9, 1⟩, ⟨0x1c40, 0x1c49, 1⟩,
    ⟨0x1c50, 0x1c59, 1⟩, ⟨0xa620, 0xa629, 1⟩, ⟨0xa8d0, 0xa8d9, 1⟩, ⟨0xa900, 0xa909, 1⟩,
    ⟨0xa9d0, 0xa9d9, 1⟩, ⟨0xa9f0, 0xa9f9, 1⟩, ⟨0xaa50, 0xaa59, 1⟩, ⟨0xabf0, 0xabf9, 1⟩,
    ⟨0xff10, 0xff19, 1⟩, ⟨0x104a0, 0x104a9, 1⟩, ⟨0x10d30, 0x10d39, 1⟩, ⟨0x10d40, 0x10d49, 1⟩,
    ⟨0x11066, 0x1106f, 1⟩, ⟨0x110f0, 0x110f9, 1⟩, ⟨0x11136, 0x1113f, 1⟩, ⟨0x111d0, 0x111d9, 1⟩,
    ⟨0x112f0, 0x112f9, 1⟩, ⟨0x11450, 0x11459, 1⟩, ⟨0x114d0, 0x114d9, 1⟩, ⟨0x11650, 0x11659, 1⟩,
    ⟨0x116c0, 0x116c9, 1⟩, ⟨0x116d0, 0x116e3, 1⟩, ⟨0x11730, 0x11739, 1⟩, ⟨0x118e0, 0x118e9, 1⟩,
    ⟨0x11950, 0x11959, 1⟩, ⟨0x11bf0, 0x11bf9, 1⟩, ⟨0x11c50, 0x11c59, 1⟩, ⟨0x11d50, 0x11d59, 1⟩,
    ⟨0x11da0, 0x11da9, 1⟩, ⟨0x11de0, 0x11de9, 1⟩, ⟨0x11f50, 0x11f59, 1⟩, ⟨0x16130, 0x16139, 1⟩,
    ⟨0x16a60, 0x16a69, 1⟩, ⟨0x16ac0, 0x16ac9, 1⟩, ⟨0x16b50, 0x16b59, 1⟩, ⟨0x16d70, 0x16d79, 1⟩,
    ⟨0x1ccf0, 0x1ccf9, 1⟩, ⟨0x1d7ce, 0x1d7ff, 1⟩, ⟨0x1e140, 0x1e149, 1⟩, ⟨0x1e2f0, 0x1e2f9, 1⟩,
    ⟨0x1e4f0, 0x1e4f9, 1⟩, ⟨0x1e5f1, 0x1e5fa, 1⟩, ⟨0x1e950, 0x1e959, 1⟩, ⟨0x1fbf0, 0x1fbf9, 1⟩]

/-- The numeric characters beyond ASCII that are not decimal digits. -/
def numeralBeyondAscii : CharSet :=
  [
    ⟨0xb2, 0xb3, 1⟩, ⟨0xb9, 0xb9, 1⟩, ⟨0xbc, 0xbe, 1⟩, ⟨0x9f4, 0x9f9, 1⟩, ⟨0xb72, 0xb77, 1⟩,
    ⟨0xbf0, 0xbf2, 1⟩, ⟨0xc78, 0xc7e, 1⟩, ⟨0xd58, 0xd5e, 1⟩, ⟨0xd70, 0xd78, 1⟩, ⟨0xf2a, 0xf33, 1⟩,
    ⟨0x1369, 0x137c, 1⟩, ⟨0x16ee, 0x16f0, 1⟩, ⟨0x17f0, 0x17f9, 1⟩, ⟨0x19da, 0x19da, 1⟩,
    ⟨0x2070, 0x2070, 1⟩, ⟨0x2074, 0x2079, 1⟩, ⟨0x2080, 0x2089, 1⟩, ⟨0x2150, 0x2182, 1⟩,
    ⟨0x2185, 0x2189, 1⟩, ⟨0x2460, 0x249b, 1⟩, ⟨0x24ea, 0x24ff, 1⟩, ⟨0x2776, 0x2793, 1⟩,
    ⟨0x2cfd, 0x2cfd, 1⟩, ⟨0x3007, 0x3007, 1⟩, ⟨0x3021, 0x3029, 1⟩, ⟨0x3038, 0x303a, 1⟩,
    ⟨0x3192, 0x3195, 1⟩, ⟨0x3220, 0x3229, 1⟩, ⟨0x3248, 0x324f, 1⟩, ⟨0x3251, 0x325f, 1⟩,
    ⟨0x3280, 0x3289, 1⟩, ⟨0x32b1, 0x32bf, 1⟩, ⟨0xa6e6, 0xa6ef, 1⟩, ⟨0xa830, 0xa835, 1⟩,
    ⟨0x10107, 0x10133, 1⟩, ⟨0x10140, 0x10178, 1⟩, ⟨0x1018a, 0x1018b, 1⟩, ⟨0x102e1, 0x102fb, 1⟩,
    ⟨0x10320, 0x10323, 1⟩, ⟨0x10341, 0x10341, 1⟩, ⟨0x1034a, 0x1034a, 1⟩, ⟨0x103d1, 0x103d5, 1⟩,
    ⟨0x10858, 0x1085f, 1⟩, ⟨0x10879, 0x1087f, 1⟩, ⟨0x108a7, 0x108af, 1⟩, ⟨0x108fb, 0x108ff, 1⟩,
    ⟨0x10916, 0x1091b, 1⟩, ⟨0x109bc, 0x109bd, 1⟩, ⟨0x109c0, 0x109cf, 1⟩, ⟨0x109d2, 0x109ff, 1⟩,
    ⟨0x10a40, 0x10a48, 1⟩, ⟨0x10a7d, 0x10a7e, 1⟩, ⟨0x10a9d, 0x10a9f, 1⟩, ⟨0x10aeb, 0x10aef, 1⟩,
    ⟨0x10b58, 0x10b5f, 1⟩, ⟨0x10b78, 0x10b7f, 1⟩, ⟨0x10ba9, 0x10baf, 1⟩, ⟨0x10cfa, 0x10cff, 1⟩,
    ⟨0x10e60, 0x10e7e, 1⟩, ⟨0x10f1d, 0x10f26, 1⟩, ⟨0x10f51, 0x10f54, 1⟩, ⟨0x10fc5, 0x10fcb, 1⟩,
    ⟨0x11052, 0x11065, 1⟩, ⟨0x111e1, 0x111f4, 1⟩, ⟨0x1173a, 0x1173b, 1⟩, ⟨0x118ea, 0x118f2, 1⟩,
    ⟨0x11c5a, 0x11c6c, 1⟩, ⟨0x11fc0, 0x11fd4, 1⟩, ⟨0x12400, 0x1246e, 1⟩, ⟨0x16b5b, 0x16b61, 1⟩,
    ⟨0x16e80, 0x16e96, 1⟩, ⟨0x16ff4, 0x16ff6, 1⟩, ⟨0x1d2c0, 0x1d2d3, 1⟩, ⟨0x1d2e0, 0x1d2f3, 1⟩,
    ⟨0x1d360, 0x1d378, 1⟩, ⟨0x1e8c7, 0x1e8cf, 1⟩, ⟨0x1ec71, 0x1ecab, 1⟩, ⟨0x1ecad, 0x1ecaf, 1⟩,
    ⟨0x1ecb1, 0x1ecb4, 1⟩, ⟨0x1ed01, 0x1ed2d, 1⟩, ⟨0x1ed2f, 0x1ed3d, 1⟩, ⟨0x1f100, 0x1f10c, 1⟩]

/-- The word characters that do not continue an identifier. -/
def wordMark : CharSet :=
  [
    ⟨0x488, 0x489, 1⟩, ⟨0x1abe, 0x1abe, 1⟩, ⟨0x20dd, 0x20e0, 1⟩, ⟨0x20e2, 0x20e4, 1⟩,
    ⟨0x24b6, 0x24e9, 1⟩, ⟨0x2e2f, 0x2e2f, 1⟩, ⟨0xa670, 0xa672, 1⟩, ⟨0x1f130, 0x1f149, 1⟩,
    ⟨0x1f150, 0x1f169, 1⟩, ⟨0x1f170, 0x1f189, 1⟩]

/-- The characters that continue an identifier without being word characters. -/
def identifierMark : CharSet :=
  [
    ⟨0xb7, 0xb7, 1⟩, ⟨0x387, 0x387, 1⟩, ⟨0x1369, 0x1371, 1⟩, ⟨0x19da, 0x19da, 1⟩,
    ⟨0x2118, 0x2118, 1⟩, ⟨0x212e, 0x212e, 1⟩, ⟨0x309b, 0x309c, 1⟩, ⟨0x30fb, 0x30fb, 1⟩,
    ⟨0xff65, 0xff65, 1⟩]

/-- The character is alphabetic in the sense of Unicode. -/
def isAlphabetic (c : Char) : Bool :=
  if c.toNat < 0x80 then c.isAlpha
  else
    (identifierStartBeyondAscii.contains c && !identifierSymbol.contains c) ||
      alphabeticMark.contains c

/-- The character is a decimal digit of some script. -/
def isDecimalDigit (c : Char) : Bool :=
  if c.toNat < 0x80 then c.isDigit else decimalDigitBeyondAscii.contains c

/-- The character is alphabetic or numeric. -/
def isAlphanumeric (c : Char) : Bool :=
  isAlphabetic c || isDecimalDigit c || numeralBeyondAscii.contains c

/-- The character is a word character: a letter, a mark, a digit, a connector or a joiner. -/
def isWordChar (c : Char) : Bool :=
  if c.toNat < 0x80 then c.isAlphanum || c == '_'
  else
    ((identifierStartBeyondAscii.contains c || identifierPartBeyondAscii.contains c) &&
      !identifierMark.contains c) || wordMark.contains c

end Text
end ReactiveTemplate
