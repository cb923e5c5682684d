import BusReference.Text.Letters

/-!
# Word characters

The characters that Unicode counts as parts of words: alphabetic ones, marks, decimal digits,
connector punctuation and the two join controls.
-/

namespace BusReference.Text.WordCharacter

/-- Word code points above ASCII that are not alphabetic. -/
def joining : CodePoints := [
    ⟨0x300, 0x344, 1⟩, ⟨0x346, 0x362, 1⟩, ⟨0x483, 0x489, 1⟩, ⟨0x591, 0x5af, 1⟩, ⟨0x658, 0x658, 1⟩,
    ⟨0x660, 0x669, 1⟩, ⟨0x6df, 0x6e0, 1⟩, ⟨0x6ea, 0x6ec, 1⟩, ⟨0x6f0, 0x6f9, 1⟩, ⟨0x740, 0x74a, 1⟩,
    ⟨0x7c0, 0x7c9, 1⟩, ⟨0x7eb, 0x7f3, 1⟩, ⟨0x7fd, 0x7fd, 1⟩, ⟨0x818, 0x819, 1⟩, ⟨0x82d, 0x82d, 1⟩,
    ⟨0x859, 0x85b, 1⟩, ⟨0x898, 0x89f, 1⟩, ⟨0x8ca, 0x8d3, 1⟩, ⟨0x8e0, 0x8e1, 1⟩, ⟨0x8ea, 0x8ef, 1⟩,
    ⟨0x93c, 0x93c, 1⟩, ⟨0x94d, 0x94d, 1⟩, ⟨0x951, 0x954, 1⟩, ⟨0x966, 0x96f, 1⟩, ⟨0x9bc, 0x9bc, 1⟩,
    ⟨0x9cd, 0x9cd, 1⟩, ⟨0x9e6, 0x9ef, 1⟩, ⟨0x9fe, 0x9fe, 1⟩, ⟨0xa3c, 0xa3c, 1⟩, ⟨0xa4d, 0xa4d, 1⟩,
    ⟨0xa66, 0xa6f, 1⟩, ⟨0xabc, 0xabc, 1⟩, ⟨0xacd, 0xacd, 1⟩, ⟨0xae6, 0xaef, 1⟩, ⟨0xafd, 0xaff, 1⟩,
    ⟨0xb3c, 0xb3c, 1⟩, ⟨0xb4d, 0xb4d, 1⟩, ⟨0xb55, 0xb55, 1⟩, ⟨0xb66, 0xb6f, 1⟩, ⟨0xbcd, 0xbcd, 1⟩,
    ⟨0xbe6, 0xbef, 1⟩, ⟨0xc3c, 0xc3c, 1⟩, ⟨0xc4d, 0xc4d, 1⟩, ⟨0xc66, 0xc6f, 1⟩, ⟨0xcbc, 0xcbc, 1⟩,
    ⟨0xccd, 0xccd, 1⟩, ⟨0xce6, 0xcef, 1⟩, ⟨0xd3b, 0xd3c, 1⟩, ⟨0xd4d, 0xd4d, 1⟩, ⟨0xd66, 0xd6f, 1⟩,
    ⟨0xdca, 0xdca, 1⟩, ⟨0xde6, 0xdef, 1⟩, ⟨0xe47, 0xe4c, 1⟩, ⟨0xe4e, 0xe4e, 1⟩, ⟨0xe50, 0xe59, 1⟩,
    ⟨0xeba, 0xeba, 1⟩, ⟨0xec8, 0xecc, 1⟩, ⟨0xece, 0xece, 1⟩, ⟨0xed0, 0xed9, 1⟩, ⟨0xf18, 0xf19, 1⟩,
    ⟨0xf20, 0xf29, 1⟩, ⟨0xf35, 0xf35, 1⟩, ⟨0xf37, 0xf37, 1⟩, ⟨0xf39, 0xf39, 1⟩, ⟨0xf3e, 0xf3f, 1⟩,
    ⟨0xf84, 0xf84, 1⟩, ⟨0xf86, 0xf87, 1⟩, ⟨0xfc6, 0xfc6, 1⟩, ⟨0x1037, 0x1037, 1⟩,
    ⟨0x1039, 0x103a, 1⟩, ⟨0x1040, 0x1049, 1⟩, ⟨0x1090, 0x1099, 1⟩, ⟨0x135d, 0x135f, 1⟩,
    ⟨0x1714, 0x1715, 1⟩, ⟨0x1734, 0x1734, 1⟩, ⟨0x17b4, 0x17b5, 1⟩, ⟨0x17c9, 0x17d3, 1⟩,
    ⟨0x17dd, 0x17dd, 1⟩, ⟨0x17e0, 0x17e9, 1⟩, ⟨0x180b, 0x180d, 1⟩, ⟨0x180f, 0x1819, 1⟩,
    ⟨0x1939, 0x193b, 1⟩, ⟨0x1946, 0x194f, 1⟩, ⟨0x19d0, 0x19d9, 1⟩, ⟨0x1a60, 0x1a60, 1⟩,
    ⟨0x1a75, 0x1a7c, 1⟩, ⟨0x1a7f, 0x1a89, 1⟩, ⟨0x1a90, 0x1a99, 1⟩, ⟨0x1ab0, 0x1abe, 1⟩,
    ⟨0x1ac1, 0x1acb, 1⟩, ⟨0x1acf, 0x1add, 1⟩, ⟨0x1ae0, 0x1aeb, 1⟩, ⟨0x1b34, 0x1b34, 1⟩,
    ⟨0x1b44, 0x1b44, 1⟩, ⟨0x1b50, 0x1b59, 1⟩, ⟨0x1b6b, 0x1b73, 1⟩, ⟨0x1baa, 0x1bab, 1⟩,
    ⟨0x1bb0, 0x1bb9, 1⟩, ⟨0x1be6, 0x1be6, 1⟩, ⟨0x1bf2, 0x1bf3, 1⟩, ⟨0x1c37, 0x1c37, 1⟩,
    ⟨0x1c40, 0x1c49, 1⟩, ⟨0x1c50, 0x1c59, 1⟩, ⟨0x1cd0, 0x1cd2, 1⟩, ⟨0x1cd4, 0x1ce8, 1⟩,
    ⟨0x1ced, 0x1ced, 1⟩, ⟨0x1cf4, 0x1cf4, 1⟩, ⟨0x1cf7, 0x1cf9, 1⟩, ⟨0x1dc0, 0x1dd2, 1⟩,
    ⟨0x1df5, 0x1dff, 1⟩, ⟨0x200c, 0x200d, 1⟩, ⟨0x203f, 0x2040, 1⟩, ⟨0x2054, 0x2054, 1⟩,
    ⟨0x20d0, 0x20f0, 1⟩, ⟨0x2cef, 0x2cf1, 1⟩, ⟨0x2d7f, 0x2d7f, 1⟩, ⟨0x302a, 0x302f, 1⟩,
    ⟨0x3099, 0x309a, 1⟩, ⟨0xa620, 0xa629, 1⟩, ⟨0xa66f, 0xa672, 1⟩, ⟨0xa67c, 0xa67d, 1⟩,
    ⟨0xa6f0, 0xa6f1, 1⟩, ⟨0xa806, 0xa806, 1⟩, ⟨0xa82c, 0xa82c, 1⟩, ⟨0xa8c4, 0xa8c4, 1⟩,
    ⟨0xa8d0, 0xa8d9, 1⟩, ⟨0xa8e0, 0xa8f1, 1⟩, ⟨0xa900, 0xa909, 1⟩, ⟨0xa92b, 0xa92d, 1⟩,
    ⟨0xa953, 0xa953, 1⟩, ⟨0xa9b3, 0xa9b3, 1⟩, ⟨0xa9c0, 0xa9c0, 1⟩, ⟨0xa9d0, 0xa9d9, 1⟩,
    ⟨0xa9f0, 0xa9f9, 1⟩, ⟨0xaa50, 0xaa59, 1⟩, ⟨0xaabf, 0xaabf, 1⟩, ⟨0xaac1, 0xaac1, 1⟩,
    ⟨0xaaf6, 0xaaf6, 1⟩, ⟨0xabec, 0xabed, 1⟩, ⟨0xabf0, 0xabf9, 1⟩, ⟨0xfe00, 0xfe0f, 1⟩,
    ⟨0xfe20, 0xfe2f, 1⟩, ⟨0xfe33, 0xfe34, 1⟩, ⟨0xfe4d, 0xfe4f, 1⟩, ⟨0xff10, 0xff19, 1⟩,
    ⟨0xff3f, 0xff3f, 1⟩, ⟨0x101fd, 0x101fd, 1⟩, ⟨0x102e0, 0x102e0, 1⟩, ⟨0x104a0, 0x104a9, 1⟩,
    ⟨0x10a38, 0x10a3a, 1⟩, ⟨0x10a3f, 0x10a3f, 1⟩, ⟨0x10ae5, 0x10ae6, 1⟩, ⟨0x10d30, 0x10d39, 1⟩,
    ⟨0x10d40, 0x10d49, 1⟩, ⟨0x10d6a, 0x10d6d, 1⟩, ⟨0x10efd, 0x10eff, 1⟩, ⟨0x10f46, 0x10f50, 1⟩,
    ⟨0x10f82, 0x10f85, 1⟩, ⟨0x11046, 0x11046, 1⟩, ⟨0x11066, 0x11070, 1⟩, ⟨0x1107f, 0x1107f, 1⟩,
    ⟨0x110b9, 0x110ba, 1⟩, ⟨0x110f0, 0x110f9, 1⟩, ⟨0x11133, 0x11134, 1⟩, ⟨0x11136, 0x1113f, 1⟩,
    ⟨0x11173, 0x11173, 1⟩, ⟨0x111c0, 0x111c0, 1⟩, ⟨0x111c9, 0x111cc, 1⟩, ⟨0x111d0, 0x111d9, 1⟩,
    ⟨0x11235, 0x11236, 1⟩, ⟨0x112e9, 0x112ea, 1⟩, ⟨0x112f0, 0x112f9, 1⟩, ⟨0x1133b, 0x1133c, 1⟩,
    ⟨0x1134d, 0x1134d, 1⟩, ⟨0x11366, 0x1136c, 1⟩, ⟨0x11370, 0x11374, 1⟩, ⟨0x113ce, 0x113d0, 1⟩,
    ⟨0x113d2, 0x113d2, 1⟩, ⟨0x113e1, 0x113e2, 1⟩, ⟨0x11442, 0x11442, 1⟩, ⟨0x11446, 0x11446, 1⟩,
    ⟨0x11450, 0x11459, 1⟩, ⟨0x1145e, 0x1145e, 1⟩, ⟨0x114c2, 0x114c3, 1⟩, ⟨0x114d0, 0x114d9, 1⟩,
    ⟨0x115bf, 0x115c0, 1⟩, ⟨0x1163f, 0x1163f, 1⟩, ⟨0x11650, 0x11659, 1⟩, ⟨0x116b6, 0x116b7, 1⟩,
    ⟨0x116c0, 0x116c9, 1⟩, ⟨0x116d0, 0x116e3, 1⟩, ⟨0x1172b, 0x1172b, 1⟩, ⟨0x11730, 0x11739, 1⟩,
    ⟨0x11839, 0x1183a, 1⟩, ⟨0x118e0, 0x118e9, 1⟩, ⟨0x1193d, 0x1193e, 1⟩, ⟨0x11943, 0x11943, 1⟩,
    ⟨0x11950, 0x11959, 1⟩, ⟨0x119e0, 0x119e0, 1⟩, ⟨0x11a33, 0x11a34, 1⟩, ⟨0x11a47, 0x11a47, 1⟩,
    ⟨0x11a98, 0x11a99, 1⟩, ⟨0x11bf0, 0x11bf9, 1⟩, ⟨0x11c3f, 0x11c3f, 1⟩, ⟨0x11c50, 0x11c59, 1⟩,
    ⟨0x11d42, 0x11d42, 1⟩, ⟨0x11d44, 0x11d45, 1⟩, ⟨0x11d50, 0x11d59, 1⟩, ⟨0x11d97, 0x11d97, 1⟩,
    ⟨0x11da0, 0x11da9, 1⟩, ⟨0x11de0, 0x11de9, 1⟩, ⟨0x11f41, 0x11f42, 1⟩, ⟨0x11f50, 0x11f5a, 1⟩,
    ⟨0x13440, 0x13440, 1⟩, ⟨0x13447, 0x13455, 1⟩, ⟨0x1612f, 0x16139, 1⟩, ⟨0x16a60, 0x16a69, 1⟩,
    ⟨0x16ac0, 0x16ac9, 1⟩, ⟨0x16af0, 0x16af4, 1⟩, ⟨0x16b30, 0x16b36, 1⟩, ⟨0x16b50, 0x16b59, 1⟩,
    ⟨0x16d70, 0x16d79, 1⟩, ⟨0x16fe4, 0x16fe4, 1⟩, ⟨0x1bc9d, 0x1bc9d, 1⟩, ⟨0x1ccf0, 0x1ccf9, 1⟩,
    ⟨0x1cf00, 0x1cf2d, 1⟩, ⟨0x1cf30, 0x1cf46, 1⟩, ⟨0x1d165, 0x1d169, 1⟩, ⟨0x1d16d, 0x1d172, 1⟩,
    ⟨0x1d17b, 0x1d182, 1⟩, ⟨0x1d185, 0x1d18b, 1⟩, ⟨0x1d1aa, 0x1d1ad, 1⟩, ⟨0x1d242, 0x1d244, 1⟩,
    ⟨0x1d7ce, 0x1d7ff, 1⟩, ⟨0x1da00, 0x1da36, 1⟩, ⟨0x1da3b, 0x1da6c, 1⟩, ⟨0x1da75, 0x1da75, 1⟩,
    ⟨0x1da84, 0x1da84, 1⟩, ⟨0x1da9b, 0x1da9f, 1⟩, ⟨0x1daa1, 0x1daaf, 1⟩, ⟨0x1e130, 0x1e136, 1⟩,
    ⟨0x1e140, 0x1e149, 1⟩, ⟨0x1e2ae, 0x1e2ae, 1⟩, ⟨0x1e2ec, 0x1e2f9, 1⟩, ⟨0x1e4ec, 0x1e4f9, 1⟩,
    ⟨0x1e5ee, 0x1e5ef, 1⟩, ⟨0x1e5f1, 0x1e5fa, 1⟩, ⟨0x1e8d0, 0x1e8d6, 1⟩, ⟨0x1e944, 0x1e946, 1⟩,
    ⟨0x1e948, 0x1e94a, 1⟩, ⟨0x1e950, 0x1e959, 1⟩, ⟨0x1fbf0, 0x1fbf9, 1⟩, ⟨0xe0100, 0xe01ef, 1⟩]

/-- A character that may stand inside a word. -/
def isWord (c : Char) : Bool :=
  if c.toNat < 0x80 then
    ('A' ≤ c && c ≤ 'Z') || ('a' ≤ c && c ≤ 'z') || ('0' ≤ c && c ≤ '9') || c == '_'
  else Letters.isAlphabetic c || joining.has c

end BusReference.Text.WordCharacter
